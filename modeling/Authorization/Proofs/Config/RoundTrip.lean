import Mathlib.Data.List.Nodup
import Authorization.Config.Codec
import Authorization.Proofs.Json.RoundTrip
import Authorization.Proofs.Mask.RoundTrip

/-!
# Configurations are read back as they were written

Every part of a configuration is written with all its fields and read back as it was, whatever
permissions its modules list (`Configuration.ofJson?_toJson`). So a configuration that was accepted
before it was written is accepted again, and its text is that of no other one.
-/

namespace Authorization

namespace Json

section Record

variable {members : List (String × Json)}

theorem find?_of_nodup (distinct : (members.map Prod.fst).Nodup) {member : String × Json}
    (listed : member ∈ members) :
    members.find? (fun other => other.1 = member.1) = some member := by
  induction members with
  | nil => cases listed
  | cons first members ih =>
      rw [List.map_cons, List.nodup_cons] at distinct
      rcases List.mem_cons.mp listed with rfl | listed
      · simp
      · have apart : first.1 ≠ member.1 := fun same =>
          distinct.1 (same ▸ List.mem_map_of_mem listed)
        rw [List.find?_cons_of_neg (by simpa using apart), ih distinct.2 listed]

theorem length_filter_le_one (distinct : (members.map Prod.fst).Nodup) (name : String) :
    (members.filter fun member => member.1 = name).length ≤ 1 :=
  calc
    _ = (members.map Prod.fst).count name := by
      rw [List.count, List.countP_map, List.countP_eq_length_filter]
      rfl
    _ ≤ 1 := List.nodup_iff_count_le_one.mp distinct name

/-- The fields of a record are found under their names. -/
theorem record?_record {names : List String} (named : members.map Prod.fst = names)
    (distinct : names.Nodup) :
    (record members).record? names = some (members.map fun member => some member.2) := by
  subst named
  have texts : ((members.map fun member => (some member.1, member.2)).any
      fun member => member.1.isNone) = false := by
    simp
  have once : ((members.map Prod.fst).any fun name =>
      1 < ((members.map fun member => (some member.1, member.2)).filter
        fun member => member.1 = some name).length) = false := by
    refine List.any_eq_false.mpr fun name _ => ?_
    have single := length_filter_le_one distinct name
    simpa [List.filter_map, Function.comp_def] using single
  change (if _ then none else if _ then none else some _) = _
  rw [texts, once, if_neg Bool.false_ne_true, if_neg Bool.false_ne_true, List.map_map]
  refine congrArg some (List.map_congr_left fun member listed => ?_)
  have found := find?_of_nodup distinct listed
  simp [List.find?_map, Function.comp_def, found]

end Record

theorem isPlain_text (value : String) : IsPlain (.text value) := .string value

theorem isPlain_record {members : List (String × Json)}
    (each : ∀ member ∈ members, IsPlain member.2) : IsPlain (record members) :=
  .object (List.forall_mem_map.mpr fun _ _ => rfl) (List.forall_mem_map.mpr each)

theorem isPlain_array_map {α : Type} {write : α → Json} (each : ∀ value, IsPlain (write value))
    (values : List α) : IsPlain (array (values.map write)) :=
  .array (List.forall_mem_map.mpr fun value _ => each value)

/-- A list is read back if each value is. -/
theorem list?_array_map {α : Type} {read : Json → Option α} {write : α → Json}
    (each : ∀ value, read (write value) = some value) (values : List α) :
    list? read (array (values.map write)) = some values :=
  calc
    _ = values.mapM (read ∘ write) := List.mapM_map
    _ = some (values.map id) := mapM_eq_some_map fun value _ => each value
    _ = some values := congrArg some (List.map_id values)

end Json

theorem Permissions.ofJson?_toJson (permissions : Permissions) :
    ofJson? permissions.toJson = some permissions :=
  Mask.parse?_serialize permissions

theorem ModuleEntry.ofJson?_toJson (entry : ModuleEntry) : ofJson? entry.toJson = some entry := by
  have fields : entry.toJson.record? ["path", "allow", "deny"] =
      some [some (.text entry.path), some entry.allow.toJson, some entry.deny.toJson] :=
    Json.record?_record rfl (by decide)
  rw [ofJson?, fields]
  simp [Json.text, Json.text?, Json.optional?, Permissions.ofJson?_toJson]

theorem ModuleEntry.isPlain_toJson (entry : ModuleEntry) : entry.toJson.IsPlain :=
  Json.isPlain_record (by simp [Json.isPlain_text, Permissions.toJson])

theorem ModuleConfig.ofJson?_toJson (module : ModuleConfig) :
    ofJson? module.toJson = some module := by
  have fields : module.toJson.record? ["name", "covers", "repository", "entries"] =
      some [some (.text module.name), some module.covers.toJson, some module.repository.toJson,
        some (.array (module.entries.map ModuleEntry.toJson))] :=
    Json.record?_record rfl (by decide)
  have entries := Json.list?_array_map ModuleEntry.ofJson?_toJson module.entries
  rw [ofJson?, fields]
  simp [Json.text, Json.text?, Json.optional?, Permissions.ofJson?_toJson, entries]

theorem ModuleConfig.isPlain_toJson (module : ModuleConfig) : module.toJson.IsPlain :=
  Json.isPlain_record (by
    simp [Json.isPlain_text, Permissions.toJson,
      Json.isPlain_array_map ModuleEntry.isPlain_toJson])

theorem LoggingConfig.ofJson?_toJson (logging : LoggingConfig) :
    ofJson? logging.toJson = some logging := by
  obtain ⟨level, json, directory⟩ := logging
  cases directory with
  | none => rfl
  | some directory => rfl

theorem LoggingConfig.isPlain_toJson (logging : LoggingConfig) : logging.toJson.IsPlain := by
  obtain ⟨level, json, directory⟩ := logging
  cases directory with
  | none =>
      exact Json.isPlain_record (by
        simp [Json.isPlain_text, Json.IsPlain.boolean, Json.IsPlain.null])
  | some directory =>
      exact Json.isPlain_record (by simp [Json.isPlain_text, Json.IsPlain.boolean])

theorem Composition.ofJson?_word (composition : Composition) :
    ofJson? (.text composition.word) = some composition :=
  ofWord?_word composition

namespace Configuration

variable (config : Configuration)

/-- A configuration is read back from what is written of it. -/
theorem ofJson?_toJson : ofJson? config.toJson = some config := by
  have fields : config.toJson.record? ["composition", "content", "providers", "logging"] =
      some [some (.text config.composition.word), some (.array (config.content.map .text)),
        some (.array (config.modules.map ModuleConfig.toJson)), some config.logging.toJson] :=
    Json.record?_record rfl (by decide)
  have text (value : String) : (Json.text value).text? = some value := rfl
  have content := Json.list?_array_map text config.content
  have modules := Json.list?_array_map ModuleConfig.ofJson?_toJson config.modules
  rw [ofJson?, fields]
  simp [Json.optional?, Composition.ofJson?_word, content, modules, LoggingConfig.ofJson?_toJson]

/-- What is written of a configuration is plain, so its text can be read back. -/
theorem isPlain_toJson : config.toJson.IsPlain :=
  Json.isPlain_record (by
    simp [Json.isPlain_text, Json.isPlain_array_map Json.isPlain_text,
      Json.isPlain_array_map ModuleConfig.isPlain_toJson, LoggingConfig.isPlain_toJson])

variable {config}

/-- A configuration that can be used is loaded from what is written of it. -/
theorem load_toJson (accepted : config.validate = .ok ()) : load config.toJson = .ok config := by
  rw [load, ofJson?_toJson]
  change (config.validate >>= fun _ => pure config) = _
  rw [accepted]
  rfl

/-- **Configurations are read back as they were.** A configuration that is accepted is read from its
own text, and from every other text for the same value, as it was. -/
theorem parse_render_toJson (accepted : config.validate = .ok ()) :
    parse config.toJson.render = .ok config ∧
      ∀ text, Json.parse? text = some config.toJson → parse text = .ok config := by
  have whole {text : String} (read : Json.parse? text = some config.toJson) :
      parse text = .ok config := by
    rw [parse, read]
    exact load_toJson accepted
  exact ⟨whole (Json.parse?_render config.isPlain_toJson), fun _ => whole⟩

/-- One module with no permissions, all of them, and bits that no permission has. -/
def motley : Configuration where
  composition := .or
  content := ["/content", "/content"]
  modules := [{ name := "a\"b", covers := ⟨0x80000000001fffff⟩,
                entries := [{ path := "/", deny := ⟨0x600000⟩ }] }]
  logging := { directory := some "" }

theorem motley_read_back :
    motley.validate = .ok () ∧ parse motley.toJson.render = .ok motley := by
  have accepted : motley.validate = .ok () := rfl
  exact ⟨accepted, (parse_render_toJson accepted).1⟩

end Configuration

end Authorization
