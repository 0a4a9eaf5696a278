import Mailshot.Proofs.Settings.Load
import Mailshot.Proofs.Settings.Spelling

/-!
# Texts from variables

A text setting may come from a variable or from a file.  A file gives it as it is, a variable gives
what becomes of it there, so the two agree for the texts that stay as they are, and only for those.

* `Environment.Only`, `Layer.Only`: variables and files with one setting among them;
* `Settings.load_text`: what that setting is, from either.
-/

namespace Mailshot

open Mailshot.Field (text?)

namespace Environment

variable {s : String}

/-- Variables among which there is one setting. -/
structure Only (vars : List (String × String)) (leaf : Leaf) (text : String) : Prop where
  sets : Sets vars leaf text
  alone {name other : String} : (name, other) ∈ vars →
    key? name = none ∨ lowerCase name = leaf.var ∧ other = text

section Only

variable {vars : List (String × String)} {leaf other : Leaf} {text : String}

theorem Only.eq_of_sets (h : Only vars leaf s) (hsets : Sets vars other text) :
    other = leaf ∧ text = s := by
  obtain ⟨name, hmem, hname⟩ := hsets
  have hkey := key?_of_var hname
  rcases h.alone hmem with hnone | ⟨hvar, htext⟩
  · rw [hnone] at hkey
    cases hkey
  · exact ⟨Leaf.key_injective (Option.some.inj (hkey.symm.trans (key?_of_var hvar))), htext⟩

theorem Only.clear (h : Only vars leaf s) (hconverts : ∃ x, leaf.convert (value s) = .ok x) :
    Clear vars where
  regular := fun _ _ hmem => (h.alone hmem).imp_right fun hvar => ⟨leaf, hvar.1⟩
  once hsets hother := (h.eq_of_sets hsets).2.trans (h.eq_of_sets hother).2.symm
  converts hsets := by
    obtain ⟨rfl, rfl⟩ := h.eq_of_sets hsets
    exact hconverts

theorem clear_nil : Clear [] where
  regular := fun _ _ hmem => by cases hmem
  once := fun ⟨_, hmem, _⟩ => by cases hmem
  converts := fun ⟨_, hmem, _⟩ => by cases hmem

end Only

end Environment

namespace Layer

/-- A file in which there is one setting. -/
structure Only (file : Layer) (leaf : Leaf) (v : Json) : Prop extends file.Regular where
  gives : file.Gives leaf v
  alone {other : Leaf} {w : Json} : file.Gives other w → other = leaf ∧ w = v

theorem Only.clear {file : Layer} {leaf : Leaf} {v : Json} (h : file.Only leaf v)
    (hconverts : ∃ x, leaf.convert v = .ok x) : file.Clear where
  toRegular := h.toRegular
  once hgives hother := (h.alone hgives).2.trans (h.alone hother).2.symm
  converts hgives := by
    obtain ⟨rfl, rfl⟩ := h.alone hgives
    exact hconverts

theorem clear_nil : Clear [] where
  plain hmem := by cases hmem
  table hmem := by cases hmem
  once := fun ⟨_, _, hmem, _⟩ => by cases hmem
  converts := fun ⟨_, _, hmem, _⟩ => by cases hmem

end Layer

/-- The settings that are texts. -/
def Leaf.texts : List Leaf := [nodeId, apiKey, fromEmail, fromName]

theorem Leaf.convert_of_mem_texts {leaf : Leaf} (h : leaf ∈ texts) (v : Json) :
    leaf.convert v = (text? v).map .text := by
  simp only [texts, List.mem_cons, List.not_mem_nil, or_false] at h
  rcases h with rfl | rfl | rfl | rfl <;> rfl

namespace Settings

open Environment (Respelt Kept Sets value)

variable {leaf : Leaf} {vars : List (String × String)} {file? : Option SettingsFile} {file : Layer}
  {s : String}

/-- **A text setting from a variable and from a file.**  Both are loaded.  The file gives the
setting the text as it is, the variable what becomes of it, and that is the same just for the texts
that stay as they are.  No other setting changes. -/
theorem load_text (hleaf : leaf ∈ Leaf.texts) (hvars : Environment.Only vars leaf s)
    (hlayer : SettingsFile.layerOf file? = .ok file) (hfile : file.Only leaf (.text s)) :
    ∃ byVar byFile t, load none vars = .ok byVar ∧ load file? [] = .ok byFile ∧
      Respelt s t ∧ leaf.get byVar = .text t ∧ leaf.get byFile = .text s ∧
      (leaf.get byVar = leaf.get byFile ↔ Kept s) ∧
      ∀ other ≠ leaf, other.get byVar = other.default ∧ other.get byFile = other.default := by
  obtain ⟨t, ht⟩ := Environment.exists_respelt s
  have hvar : leaf.convert (value s) = .ok (.text t) := by
    rw [Leaf.convert_of_mem_texts hleaf, Environment.text?_value ht]
    rfl
  have htext : leaf.convert (.text s) = .ok (.text s) := Leaf.convert_of_mem_texts hleaf _
  have hnone : SettingsFile.layerOf none = .ok [] := rfl
  obtain ⟨byVar, hbyVar, hlayered⟩ := exists_load hnone Layer.clear_nil (hvars.clear ⟨_, hvar⟩)
  obtain ⟨byFile, hbyFile, hlayered'⟩ :=
    exists_load hlayer (hfile.clear ⟨_, htext⟩) Environment.clear_nil
  have hgetVar : leaf.get byVar = .text t :=
    Except.ok.inj (((hlayered leaf).1 s hvars.sets).symm.trans hvar)
  have hunset (other : Leaf) (text : String) : ¬ Sets [] other text := fun ⟨_, hmem, _⟩ => by
    cases hmem
  have hgetFile : leaf.get byFile = .text s :=
    Except.ok.inj ((((hlayered' leaf).2 (hunset leaf)).1 _ hfile.gives).symm.trans htext)
  refine ⟨byVar, byFile, t, hbyVar, hbyFile, ht, hgetVar, hgetFile, ?_, fun other hne => ⟨?_, ?_⟩⟩
  · rw [hgetVar, hgetFile, Value.text.injEq]
    exact ht.eq_iff
  · refine ((hlayered other).2 fun text hsets => hne (hvars.eq_of_sets hsets).1).2 ?_
    exact fun _ ⟨_, _, hmem, _⟩ => by cases hmem
  · exact ((hlayered' other).2 (hunset other)).2 fun _ hgives => hne (hfile.alone hgives).1

/-- A variable that gives an identifier with zeros before it. -/
def paddedVars : List (String × String) := [("CAMPAIGN_DISPATCH__NODE_ID", "007")]

/-- A file that gives it. -/
def paddedFile : SettingsFile where
  name := "node.toml"
  text := "node_id = \"007\"\n"

/-- The settings in that file. -/
def paddedLayer : Layer := [("node_id", .text "007")]

theorem only_paddedVars : Environment.Only paddedVars .nodeId "007" where
  sets := ⟨_, List.mem_singleton_self _, by decide +kernel⟩
  alone hmem := by
    obtain ⟨rfl, rfl⟩ := Prod.mk.inj (List.mem_singleton.mp hmem)
    exact .inr ⟨by decide +kernel, rfl⟩

theorem only_paddedLayer : paddedLayer.Only .nodeId (.text "007") where
  plain hmem _ := by
    obtain ⟨rfl, rfl⟩ := Prod.mk.inj (List.mem_singleton.mp hmem)
    decide
  table hmem hsection := by
    obtain ⟨rfl, rfl⟩ := Prod.mk.inj (List.mem_singleton.mp hmem)
    exact absurd hsection (by decide)
  gives := ⟨"node_id", _, List.mem_singleton_self _, by decide, rfl⟩
  alone {other w} := by
    rintro ⟨key, v, hmem, htop, hinside⟩
    obtain ⟨rfl, rfl⟩ := Prod.mk.inj (List.mem_singleton.mp hmem)
    have hleaf : ∀ leaf : Leaf, lowerCase "node_id" = leaf.top → leaf = .nodeId := by
      intro leaf
      cases leaf <;> decide
    obtain rfl := hleaf other htop
    exact ⟨rfl, hinside⟩

theorem respelt_padded : Respelt "007" "7" := by
  have hdigits : Number.Decimal.Digits "007".toList :=
    ⟨by decide, List.all_eq_true.mp (by decide)⟩
  have hword (b : Bool) : ¬ Environment.Word "007" b :=
    Environment.not_word (c := '7') (by decide) (by decide) b
  exact .integer (i := 7) hword ⟨.plain hdigits, by omega, by omega⟩

theorem load_text_of_padded :
    Leaf.nodeId ∈ Leaf.texts ∧ Environment.Only paddedVars .nodeId "007" ∧
      SettingsFile.layerOf (some paddedFile) = .ok paddedLayer ∧
      paddedLayer.Only .nodeId (.text "007") ∧
      ∃ byVar byFile, load none paddedVars = .ok byVar ∧ load (some paddedFile) [] = .ok byFile ∧
        Leaf.nodeId.get byVar = .text "7" ∧ Leaf.nodeId.get byFile = .text "007" ∧
        ¬ Kept "007" := by
  have hleaf : Leaf.nodeId ∈ Leaf.texts := by decide
  have hlayer : SettingsFile.layerOf (some paddedFile) = .ok paddedLayer := by cbv
  obtain ⟨byVar, byFile, t, hbyVar, hbyFile, ht, hgetVar, hgetFile, hsame, -⟩ :=
    load_text hleaf only_paddedVars hlayer only_paddedLayer
  obtain rfl := ht.unique respelt_padded
  refine ⟨hleaf, only_paddedVars, hlayer, only_paddedLayer, byVar, byFile, hbyVar, hbyFile,
    hgetVar, hgetFile, ?_⟩
  rw [← hsame, hgetVar, hgetFile]
  decide

/-- Not every text setting is what its variable has. -/
theorem not_always_kept :
    ¬ ∀ leaf ∈ Leaf.texts, ∀ (s : String) (vars : List (String × String)),
      Environment.Only vars leaf s → ∃ settings, load none vars = .ok settings ∧
        leaf.get settings = .text s := by
  intro h
  obtain ⟨settings, hload, hget⟩ := h .nodeId (by decide) "007" paddedVars only_paddedVars
  have hpadded : load none paddedVars = .ok { nodeId := "7" } := by cbv
  obtain rfl := Except.ok.inj (hpadded.symm.trans hload)
  exact absurd hget (by decide)

end Settings

end Mailshot
