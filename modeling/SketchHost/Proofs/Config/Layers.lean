/-
**Layers of configuration.**

A layer that is laid over another one says what its paths lead to.  Where it settles a path, which is to
lead it to what is no record, the path leads there afterwards.  Where it is silent, the path leads to what
it led to before.  Nothing comes in from elsewhere, and to lay a layer again changes nothing.  A
configuration is the defaults with a file over them and overrides over both.

* `Config.Settles`, `Config.IsSilent` — what a layer says about a path;
* `Config.merge_record_cases` — a record over any value;
* `Config.field?_merge` — a field after merging, from the field in either layer;
* `Config.Settles.at?_merge`, `Config.IsSilent.at?_merge`, `Config.at?_merge_source` — paths after merging;
* `Config.merge_merge_self`, `Config.isProper_merge` — merging again, and the names of what is merged;
* `Config.Layered`, `Config.layered_merge` — one layer over another;
* `Config.fileLayer`, `Config.load_eq` — the layer of a file, and a configuration as three layers;
* `Config.Configured`, `Config.layers_count_in_order` — **every layer counts over those below it**.
-/

import SketchHost.Config.Layers
import SketchHost.Proofs.Yaml.Names

set_option relaxedAutoImplicit false
set_option autoImplicit false

namespace SketchHost

namespace Config

open Value (IsProper)

variable {lower upper v : Value} {path : List String}

/-! ### What a layer says about a path -/

/-- A layer settles a path: it leads to what is no record. -/
def Settles (layer : Value) (path : List String) (v : Value) : Prop :=
  layer.at? path = some v ∧ v.fields? = none

/-- A layer is silent about a path: it leads nowhere, and as far as it leads, it leads to records. -/
def IsSilent (layer : Value) (path : List String) : Prop :=
  layer.at? path = none ∧ ∀ shorter v, shorter <+: path → layer.at? shorter = some v → v.fields?.isSome

/-- A layer that is silent about a path is a record. -/
theorem IsSilent.exists_record (h : IsSilent upper path) : ∃ fields, upper = .record fields := by
  have hroot : upper.fields?.isSome := h.2 [] upper (List.nil_prefix) rfl
  cases upper <;> first | exact ⟨_, rfl⟩ | cases hroot

theorem IsSilent.ne_nil (h : IsSilent upper path) : path ≠ [] := by
  rintro rfl
  cases h.1

/-- A record is silent about a path if the field at its head, if there is one, is silent about the rest. -/
theorem isSilent_cons_iff {key : String} {fields : Fields} :
    IsSilent (.record fields) (key :: path) ↔
      ∀ part, Fields.find? key fields = some part → IsSilent part path := by
  have hat (rest : List String) : (Value.record fields).at? (key :: rest)
      = (Fields.find? key fields).bind (Value.at? rest) := rfl
  constructor
  · rintro ⟨hnone, hrecords⟩ part hpart
    rw [hat, hpart, Option.bind_some] at hnone
    refine ⟨hnone, fun shorter w hprefix hw => hrecords (key :: shorter) w ?_ ?_⟩
    · exact (List.prefix_cons_inj key).2 hprefix
    · rw [hat, hpart, Option.bind_some, hw]
  · intro h
    refine ⟨?_, fun shorter w hprefix hw => ?_⟩
    · rw [hat]
      exact Option.bind_eq_none_iff.2 fun part hpart => (h part hpart).1
    · cases shorter with
      | nil =>
          cases hw
          rfl
      | cons first shorter =>
          obtain ⟨rfl, hrest⟩ := List.cons_prefix_cons.1 hprefix
          obtain ⟨part, hpart, hw⟩ := Option.bind_eq_some_iff.1 ((hat shorter).symm.trans hw)
          exact (h part hpart).2 shorter w hrest hw

/-! ### Merging fields -/

/-- What is no record replaces what is below it. -/
theorem merge_of_not_record (h : upper.fields? = none) (lower : Value) : merge lower upper = upper := by
  cases upper <;> first | rfl | cases h

/-- Over what is no record, a value stays as it is. -/
theorem merge_over_not_record (h : lower.fields? = none) (upper : Value) : merge lower upper = upper := by
  cases upper <;> cases lower <;> first | rfl | cases h

/-- A record that is laid over a value replaces it, unless this is a record too. -/
theorem merge_record_cases (lower : Value) (others : Fields) :
    (lower.fields? = none ∧ merge lower (.record others) = .record others) ∨
      ∃ fields, lower = .record fields ∧
        merge lower (.record others) = .record (merge.mergeFields fields others) := by
  cases lower with
  | record fields => exact .inr ⟨fields, rfl, rfl⟩
  | _ => exact .inl ⟨rfl, rfl⟩

/-- Fields are laid over others one by one; a field that is new is laid over nothing. -/
theorem mergeFields_cons (key : String) (v : Value) (fields rest : Fields) :
    merge.mergeFields fields ((key, v) :: rest) =
      merge.mergeFields (Fields.set key (merge ((Fields.find? key fields).getD .null) v) fields) rest := by
  rw [merge.mergeFields]
  cases Fields.find? key fields with
  | none => rw [Option.getD_none, merge_over_not_record rfl]
  | some old => rfl

/-- A field that is not laid over stays as it is. -/
theorem find?_mergeFields_of_none {key : String} {fields others : Fields}
    (h : Fields.find? key others = none) :
    Fields.find? key (merge.mergeFields fields others) = Fields.find? key fields := by
  induction others generalizing fields with
  | nil => rfl
  | cons field rest ih =>
      obtain ⟨k, w⟩ := field
      rw [Fields.find?_eq_none_iff, Fields.keys, List.map_cons, List.mem_cons, not_or] at h
      rw [mergeFields_cons, ih (Fields.find?_eq_none_iff.2 h.2), Fields.find?_set_of_ne h.1]

/-- A field that is laid over is merged with what is laid over it. -/
theorem find?_mergeFields_of_some {key : String} {fields others : Fields} (hnames : others.keys.Nodup)
    (h : Fields.find? key others = some v) :
    Fields.find? key (merge.mergeFields fields others) =
      some (merge ((Fields.find? key fields).getD .null) v) := by
  induction others generalizing fields with
  | nil => cases h
  | cons field rest ih =>
      obtain ⟨k, w⟩ := field
      obtain ⟨hk, hrest⟩ := List.nodup_cons.1 hnames
      rw [mergeFields_cons]
      by_cases hkey : k = key
      · subst hkey
        simp only [Fields.find?, beq_self_eq_true, if_true, Option.some.injEq] at h
        rw [find?_mergeFields_of_none (Fields.find?_eq_none_iff.2 hk), Fields.find?_set_self, h]
      · simp only [Fields.find?, beq_iff_eq, hkey, if_false] at h
        rw [ih hrest h, Fields.find?_set_of_ne (Ne.symm hkey)]

/-- A field after merging: that of the upper layer over that of the lower one, if there is one. -/
theorem field?_merge {others : Fields} (hnames : others.keys.Nodup) (lower : Value) (key : String) :
    (merge lower (.record others)).field? key = (Fields.find? key others).elim (lower.field? key)
      fun v => some (merge ((lower.field? key).getD .null) v) := by
  rcases merge_record_cases lower others with ⟨hlower, hmerge⟩ | ⟨fields, rfl, hmerge⟩
  · rw [hmerge, Value.field?_record, Value.field?_of_not_record hlower]
    cases Fields.find? key others with
    | none => rfl
    | some v => rw [Option.elim_some, Option.getD_none, merge_over_not_record rfl]
  · rw [hmerge, Value.field?_record, Value.field?_record]
    cases hv : Fields.find? key others with
    | none => exact find?_mergeFields_of_none hv
    | some v => exact find?_mergeFields_of_some hnames hv

/-! ### Paths -/

theorem at?_null (h : path ≠ []) : Value.null.at? path = none := by
  cases path with
  | nil => contradiction
  | cons key path => rfl

/-- What the upper layer settles is so after merging. -/
theorem Settles.at?_merge (hupper : upper.IsProper) (h : Settles upper path v) (lower : Value) :
    (merge lower upper).at? path = some v := by
  induction path generalizing lower upper with
  | nil =>
      obtain ⟨hroot, hv⟩ := h
      obtain rfl := Option.some.inj hroot
      rw [merge_of_not_record hv]
      rfl
  | cons key path ih =>
      obtain ⟨hpath, hv⟩ := h
      rw [Value.at?_cons] at hpath ⊢
      obtain ⟨part, hpart, hrest⟩ := Option.bind_eq_some_iff.1 hpath
      cases upper with
      | record others =>
          rw [Value.field?_record] at hpart
          rw [field?_merge hupper.names, hpart]
          exact ih (hupper.of_find? hpart) ⟨hrest, hv⟩ _
      | _ => cases hpart

/-- Where the upper layer is silent, everything is as in the lower one. -/
theorem IsSilent.at?_merge (hupper : upper.IsProper) (h : IsSilent upper path) (lower : Value) :
    (merge lower upper).at? path = lower.at? path := by
  induction path generalizing lower upper with
  | nil => exact absurd rfl h.ne_nil
  | cons key path ih =>
      obtain ⟨others, rfl⟩ := h.exists_record
      rw [Value.at?_cons, Value.at?_cons, field?_merge hupper.names]
      cases hpart : Fields.find? key others with
      | none => rfl
      | some part =>
          have hsilent : IsSilent part path := isSilent_cons_iff.1 h part hpart
          rw [Option.elim_some, Option.bind_some, ih (hupper.of_find? hpart) hsilent]
          cases lower.field? key with
          | none => exact at?_null hsilent.ne_nil
          | some old => rfl

/-- Whatever a path leads to after merging, it leads somewhere in one of the layers. -/
theorem at?_merge_source (hupper : upper.IsProper) (h : (merge lower upper).at? path = some v) :
    (lower.at? path).isSome ∨ (upper.at? path).isSome := by
  induction path generalizing lower upper with
  | nil => exact .inl rfl
  | cons key path ih =>
      cases upper with
      | record others =>
          rw [Value.at?_cons, field?_merge hupper.names] at h
          rw [Value.at?_cons, Value.at?_cons, Value.field?_record]
          cases hpart : Fields.find? key others with
          | none =>
              rw [hpart, Option.elim_none] at h
              exact .inl (by rw [h]; rfl)
          | some part =>
              rw [hpart, Option.elim_some, Option.bind_some] at h
              rw [Option.bind_some]
              cases hold : lower.field? key with
              | some old =>
                  rw [hold] at h
                  exact ih (hupper.of_find? hpart) h
              | none =>
                  rw [hold, Option.getD_none, merge_over_not_record rfl] at h
                  exact .inr (by rw [h]; rfl)
      | _ =>
          rw [merge_of_not_record rfl] at h
          exact .inr (by rw [h]; rfl)

/-! ### Merging again -/

/-- Fields with what is laid over them already stay as they are. -/
theorem mergeFields_eq_self {fields others : Fields}
    (h : ∀ field ∈ others, ∃ old, Fields.find? field.1 fields = some old ∧ merge old field.2 = old) :
    merge.mergeFields fields others = fields := by
  induction others with
  | nil => rfl
  | cons field rest ih =>
      obtain ⟨key, v⟩ := field
      obtain ⟨⟨old, hold, hmerge⟩, hrest⟩ := List.forall_mem_cons.1 h
      rw [mergeFields_cons, hold, Option.getD_some, hmerge, Fields.set_eq_self hold]
      exact ih hrest

/-- To lay a layer again changes nothing. -/
theorem merge_merge_self (hupper : upper.IsProper) (lower : Value) :
    merge (merge lower upper) upper = merge lower upper := by
  induction hupper generalizing lower with
  | scalar hfields hitems => rw [merge_of_not_record hfields, merge_of_not_record hfields]
  | list _ _ => rfl
  | @record others hnames hparts ih =>
      -- every field of the upper layer is below itself already
      have hself : ∀ fields, (∀ key v, Fields.find? key others = some v →
          ∃ old, Fields.find? key fields = some (merge old v)) →
          merge.mergeFields fields others = fields := by
        intro fields h
        refine mergeFields_eq_self fun field hfield => ?_
        obtain ⟨old, hold⟩ := h field.1 field.2 (Fields.find?_of_mem hnames hfield)
        exact ⟨_, hold, ih field hfield old⟩
      rcases merge_record_cases lower others with ⟨-, hmerge⟩ | ⟨fields, rfl, hmerge⟩
      · rw [hmerge, merge]
        refine congrArg Value.record (hself others fun key v hv => ⟨.null, ?_⟩)
        rw [hv, merge_over_not_record rfl]
      · rw [hmerge, merge]
        exact congrArg Value.record (hself _ fun key v hv => ⟨_, find?_mergeFields_of_some hnames hv⟩)

theorem isProper_mergeFields {fields others : Fields} (hfields : (Value.record fields).IsProper)
    (h : ∀ field ∈ others, ∀ old : Value, old.IsProper → (merge old field.2).IsProper) :
    (Value.record (merge.mergeFields fields others)).IsProper := by
  induction others generalizing fields with
  | nil => exact hfields
  | cons field rest ih =>
      obtain ⟨key, v⟩ := field
      obtain ⟨hfield, hrest⟩ := List.forall_mem_cons.1 h
      rw [mergeFields_cons]
      refine ih (hfields.set key (hfield _ ?_)) hrest
      cases hold : Fields.find? key fields with
      | none => exact .scalar rfl rfl
      | some old => exact hfields.of_find? hold

/-- What is merged from proper layers is proper. -/
theorem isProper_merge (hupper : upper.IsProper) (hlower : lower.IsProper) :
    (merge lower upper).IsProper := by
  induction hupper generalizing lower with
  | scalar hfields hitems =>
      rw [merge_of_not_record hfields]
      exact .scalar hfields hitems
  | list h _ => exact .list h
  | @record others hnames hparts ih =>
      rcases merge_record_cases lower others with ⟨-, hmerge⟩ | ⟨fields, rfl, hmerge⟩
      · rw [hmerge]
        exact .record hnames hparts
      · rw [hmerge]
        exact isProper_mergeFields hlower fun field hfield old hold => ih field hfield hold

/-! ### One layer over another -/

/-- One layer over another: what the upper one settles, what the lower one keeps, and nothing else.  The
names are unique if they are in both, and to lay the upper one again changes nothing. -/
structure Layered (lower upper merged : Value) : Prop where
  mapping : merged.fields?.isSome
  settled : ∀ path v, Settles upper path v → merged.at? path = some v
  kept : ∀ path, IsSilent upper path → merged.at? path = lower.at? path
  source : ∀ path v, merged.at? path = some v → (lower.at? path).isSome ∨ (upper.at? path).isSome
  again : merge merged upper = merged
  proper : lower.IsProper → merged.IsProper

/-- A record that is laid over a value. -/
theorem layered_merge (lower : Value) {others : Fields} (h : (Value.record others).IsProper) :
    Layered lower (.record others) (merge lower (.record others)) where
  mapping := by cases lower <;> rfl
  settled _ _ hsettles := hsettles.at?_merge h lower
  kept _ hsilent := hsilent.at?_merge h lower
  source _ _ := at?_merge_source h
  again := merge_merge_self h lower
  proper := isProper_merge h

/-! ### Loading -/

/-- The layer of a file, which is empty if there is none. -/
def fileLayer : Option File → Except ConfigFault Value
  | none => .ok (.record [])
  | some f => layerOf f

/-- A configuration is the defaults with two layers over them. -/
theorem load_eq (file? : Option File) (overrides : Fields) :
    load file? overrides =
      (fileLayer file?).map fun layer => merge (merge defaults layer) (.record overrides) := by
  cases file? with
  | none => rfl
  | some f =>
      rw [load, fileLayer]
      cases layerOf f <;> rfl

/-- The layer of a file is a proper record. -/
theorem exists_of_fileLayer {file? : Option File} {layer : Value} (h : fileLayer file? = .ok layer) :
    ∃ fields : Fields, layer = .record fields ∧ layer.IsProper := by
  cases file? with
  | none =>
      cases h
      exact ⟨[], rfl, Value.isProper_nil⟩
  | some f =>
      rw [fileLayer, layerOf] at h
      split at h
      · contradiction
      · next v hv =>
          have hproper : (v.orElse (.record [])).IsProper := by
            rw [Value.orElse]
            split
            · exact Value.isProper_nil
            · exact Yaml.isProper_read? hv
          split at h
          · next fields hfields =>
              cases h
              exact ⟨fields, rfl, hfields ▸ hproper⟩
          · contradiction

/-- What a configuration says: the overrides count over the file, and the file over the defaults. -/
structure Configured (layer overrides config : Value) : Prop where
  byOverrides : ∀ path v, Settles overrides path v → config.at? path = some v
  byFile : ∀ path v, IsSilent overrides path → Settles layer path v → config.at? path = some v
  byDefault : ∀ path, IsSilent overrides path → IsSilent layer path →
    config.at? path = defaults.at? path
  source : ∀ path v, config.at? path = some v →
    (defaults.at? path).isSome ∨ (layer.at? path).isSome ∨ (overrides.at? path).isSome

/-- One layer over another twice. -/
theorem configured_of_layered {layer overrides base config : Value} (hfile : Layered defaults layer base)
    (hover : Layered base overrides config) : Configured layer overrides config where
  byOverrides := hover.settled
  byFile path v hsilent hsettles := (hover.kept path hsilent).trans (hfile.settled path v hsettles)
  byDefault path hover' hfile' := (hover.kept path hover').trans (hfile.kept path hfile')
  source path v h := by
    rcases hover.source path v h with hbase | hoverrides
    · obtain ⟨w, hw⟩ := Option.isSome_iff_exists.1 hbase
      exact (hfile.source path w hw).imp_right .inl
    · exact .inr (.inr hoverrides)

/-- **Every layer counts over those below it.**  For any two records, the upper one with unique names: where
the upper one leads a path to what is no record, the path leads there after merging; where it leads a path
nowhere, and no part of the path to what is no record, the path leads to what it led to in the lower one.
No other names come in at any depth, and merging the upper one again changes nothing.

For every file and all overrides with unique names: a configuration cannot be loaded if the file is at fault.
Otherwise what the overrides settle is so, then what the file settles, and what neither mentions has its
default. -/
theorem layers_count_in_order :
    (∀ lower upper : Fields, (Value.record upper).IsProper →
      Layered (.record lower) (.record upper) (merge (.record lower) (.record upper))) ∧
    ∀ (file? : Option File) (overrides : Fields), (Value.record overrides).IsProper →
      (∀ layer, fileLayer file? = .ok layer → ∃ config,
        load file? overrides = .ok config ∧ Configured layer (.record overrides) config) ∧
      ∀ fault, fileLayer file? = .error fault → load file? overrides = .error fault := by
  refine ⟨fun lower upper h => layered_merge _ h, fun file? overrides h => ⟨fun layer hlayer => ?_, ?_⟩⟩
  · obtain ⟨fields, rfl, hproper⟩ := exists_of_fileLayer hlayer
    refine ⟨_, by rw [load_eq, hlayer]; rfl, ?_⟩
    exact configured_of_layered (layered_merge defaults hproper) (layered_merge _ h)
  · intro fault hfault
    rw [load_eq, hfault]
    rfl

/-- A file that sets the namespace of the instance. -/
def namingFile : File :=
  ⟨"bridge.yaml", "transpile:\n  namespace: sk\n"⟩

/-- Overrides that ask for identifiers. -/
def requiringOverrides : Fields :=
  [("channel", .record [("require_sketch_id", .bool true)])]

/-- The layer of the file has one setting. -/
theorem exists_fileLayer_namingFile : ∃ layer, fileLayer (some namingFile) = .ok layer ∧
    Settles layer ["transpile", "namespace"] (.text "sk") ∧ IsSilent layer ["channel", "throttle_ms"] := by
  have htest : (fileLayer (some namingFile)).toOption.map (fun layer =>
      ((layer.at? ["transpile", "namespace"]).bind Value.text?, layer.fields?.map Fields.keys))
        = some (some "sk", some ["transpile"]) := by decide +kernel
  cases hlayer : fileLayer (some namingFile) with
  | error fault => simp [hlayer, Except.toOption] at htest
  | ok layer =>
      obtain ⟨fields, rfl, -⟩ := exists_of_fileLayer hlayer
      simp only [hlayer, Except.toOption, Option.map_some, Option.some.injEq, Prod.mk.injEq] at htest
      obtain ⟨hname, hkeys⟩ := htest
      obtain ⟨v, hv, htext⟩ := Option.bind_eq_some_iff.1 hname
      have hvalue : v = .text "sk" := by
        cases v <;> first | cases htext; rfl | cases htext
      refine ⟨_, rfl, ⟨hvalue ▸ hv, rfl⟩, isSilent_cons_iff.2 fun part hpart => ?_⟩
      have hnone : Fields.find? "channel" fields = none := by
        rw [Fields.find?_eq_none_iff, Option.some.inj hkeys]
        decide
      exact absurd (hnone.symm.trans hpart) (by simp)

/-- One setting comes from the file, one from the overrides, and one is left at its default. -/
theorem layers_count_in_order_naming : (Value.record requiringOverrides).IsProper ∧
    (merge (.record [("channel", .int 1), ("b", .int 2)]) (.record requiringOverrides)).at? ["b"]
      = some (.int 2) ∧
    ∃ layer config, fileLayer (some namingFile) = .ok layer ∧
      load (some namingFile) requiringOverrides = .ok config ∧
      config.at? ["channel", "require_sketch_id"] = some (.bool true) ∧
      config.at? ["transpile", "namespace"] = some (.text "sk") ∧
      config.at? ["channel", "throttle_ms"] = some (.int 150) := by
  have hproper : (Value.record requiringOverrides).IsProper := by
    have hsetting : (Value.bool true).IsProper := .scalar rfl rfl
    have hpart : (Value.record [("require_sketch_id", .bool true)]).IsProper :=
      Value.isProper_nil.set "require_sketch_id" hsetting
    exact Value.isProper_nil.set "channel" hpart
  have hname : IsSilent (.record requiringOverrides) ["transpile", "namespace"] :=
    isSilent_cons_iff.2 fun part hpart => by cases hpart
  have hthrottle : IsSilent (.record requiringOverrides) ["channel", "throttle_ms"] := by
    refine isSilent_cons_iff.2 fun part hpart => ?_
    cases hpart
    exact isSilent_cons_iff.2 fun part hpart => by cases hpart
  have hmerge := layers_count_in_order.1 [("channel", .int 1), ("b", .int 2)] requiringOverrides hproper
  obtain ⟨layer, hlayer, hsettles, hsilent⟩ := exists_fileLayer_namingFile
  obtain ⟨config, hconfig, hsays⟩ :=
    (layers_count_in_order.2 (some namingFile) requiringOverrides hproper).1 layer hlayer
  refine ⟨hproper, ?_, layer, config, hlayer, hconfig, hsays.byOverrides _ _ ⟨rfl, rfl⟩, ?_, ?_⟩
  · exact hmerge.kept ["b"] (isSilent_cons_iff.2 fun part hpart => by cases hpart)
  · exact hsays.byFile _ _ hname hsettles
  · exact hsays.byDefault _ hthrottle hsilent

end Config

end SketchHost
