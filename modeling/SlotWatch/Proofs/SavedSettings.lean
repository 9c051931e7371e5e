import SlotWatch.Proofs.Document
import SlotWatch.Proofs.Numeral
import SlotWatch.Proofs.Quoted
import SlotWatch.Settings.File

/-!
# SlotWatch.Proofs.SavedSettings

A saved configuration is the configuration that is loaded again.

1. The values of settings are written as scalars that read as themselves: an integer of 32
   bits, and any text (`written_slot`, `written_text`).
2. The text of a configuration is a document of two sections (`reads_renderChars`), and the
   settings of that document are the configuration (`ofToml?_document`).
3. So a saved configuration is read back whatever its texts hold, and loading it refuses
   just what validation refuses (`load_saved`).
-/

namespace SlotWatch

namespace Settings

open Toml

/-! ## values -/

/-- An integer of 32 bits is read from its numeral. -/
theorem written_slot (n : Slot) : Written (Text.decimal n.toInt) (.integer n.toInt) where
  head := by
    obtain ⟨negative, ds, hds, heq, -⟩ := decimal_eq n.toInt
    obtain ⟨c, tail, hcons, hne⟩ := hds.eq_cons negative []
    rw [List.append_nil] at hcons
    exact ⟨c, tail, heq.trans hcons, by simp [isBlank, hne]⟩
  read rest := by
    refine scalar?_decimal ?_ rest
    have hlow : Int64.minValue.toInt ≤ n.toInt :=
      Int.le_trans (by decide) n.minValue_le_toInt
    have hhigh : n.toInt ≤ Int64.maxValue.toInt :=
      Int.le_trans n.toInt_le (by decide)
    rw [int64?, if_pos ⟨hlow, hhigh⟩]

theorem tomlSlot?_integer (n : Slot) : tomlSlot? (.integer n.toInt) = some n := by
  rw [tomlSlot?, int32?, if_pos ⟨n.minValue_le_toInt, n.toInt_le⟩, Int32.ofInt_toInt]

/-- A text is read from its quoted form. -/
theorem written_text (s : String) : Written (quote s.toList) (.string s) where
  head := by
    obtain ⟨c, tail, hcons, hc⟩ := quote_eq_cons s.toList
    refine ⟨c, tail, hcons, ?_⟩
    rcases hc with rfl | rfl
    · decide
    · decide
  read rest := by
    have hread := scalar?_quote s.toList (show ('\n' :: rest).head? ≠ some '"' by simp) (by simp)
    rwa [String.ofList_toList] at hread

/-! ## the document -/

/-- The section of the slots. -/
def slotEntries (s : SlotSettings) : List (String × Item) :=
  [("slot_count", .integer s.slotCount.toInt), ("default_slot_id", .integer s.defaultSlot.toInt)]

/-- The section of the log. -/
def logEntries (s : LogSettings) : List (String × Item) :=
  ("level", .string s.level) ::
    match s.file with
    | none => []
    | some file => [("file", .string file)]

/-- What is read of a saved configuration. -/
def document (s : Settings) : Progress :=
  .within [("registry", .table (.mk .headed (slotEntries s.slots)))] "logging" (logEntries s.log)

/-- A key of the latest section is added to it. -/
theorem line_setting {before es : List (String × Item)} {name key : String} {cs : List Char}
    {v : Item} (hbare : Bare key) (hv : Written cs v) (hname : name ∉ before.map Prod.fst)
    (hkey : key ∉ es.map Prod.fst) :
    Progress.Line (.within before name es) (line key cs)
      (.within before name (es ++ [(key, v)])) := by
  have hline := Progress.line_pair hbare hv (Progress.put_within hname hkey v)
  simpa [line] using hline

/-- The lines of the log settings. -/
def logLines (s : LogSettings) : List Char :=
  line "level" (quote s.level.toList) ++
    match s.file with
    | none => []
    | some file => line "file" (quote file.toList)

/-- A configuration is saved as two sections, an empty line between them. -/
theorem renderChars_eq (s : Settings) :
    s.renderChars =
      header "registry" ++ (line "slot_count" (Text.decimal s.slots.slotCount.toInt) ++
        (line "default_slot_id" (Text.decimal s.slots.defaultSlot.toInt) ++
          (['\n'] ++ (header "logging" ++ logLines s.log)))) := by
  have hslots : "[registry]\n".toList = header "registry" := rfl
  have hlog : "\n[logging]\n".toList = ['\n'] ++ header "logging" := rfl
  unfold renderChars logLines
  rw [hslots, hlog]
  cases s.log.file with
  | none => simp only [List.append_assoc]
  | some file => simp only [List.append_assoc]

/-- The lines of the log are read as its section, with the file or without. -/
theorem reads_logLines {before : List (String × Item)} (h : "logging" ∉ before.map Prod.fst)
    (s : LogSettings) :
    Progress.Reads (.within before "logging" []) (logLines s)
      (.within before "logging" (logEntries s)) := by
  have hlevel := line_setting (show Bare "level" by decide) (written_text s.level) h
    (show "level" ∉ [].map Prod.fst by simp)
  unfold logLines logEntries
  refine .cons hlevel ?_
  cases s.file with
  | none => exact .nil _
  | some file =>
      have hfile := line_setting (show Bare "file" by decide) (written_text file) h
        (show "file" ∉ [("level", Item.string s.level)].map Prod.fst by simp)
      exact .of_line hfile

/-- The saved lines are read as the two sections. -/
theorem reads_renderChars (s : Settings) : Progress.Reads {} s.renderChars (document s) := by
  have hregistry : Progress.Line {} (header "registry") (.within [] "registry" []) :=
    Progress.line_section (by decide) (by simp) []
  rw [renderChars_eq]
  refine .cons hregistry ?_
  refine .cons (line_setting (by decide) (written_slot _) (by simp) (by simp)) ?_
  refine .cons (line_setting (by decide) (written_slot _) (by simp) (by simp)) ?_
  refine .cons (Progress.line_empty _) ?_
  refine .cons (Progress.line_section (by decide) (by simp) _) ?_
  exact reads_logLines (by simp) s.log

theorem tomlSlots?_slotEntries (s : SlotSettings) :
    tomlSlots? (.table (.mk .headed (slotEntries s))) = some s := by
  simp [tomlSlots?, tomlFields?, SlotSettings.fieldNames, slotEntries, Table.find?,
    Table.entries, orDefault, tomlSlot?_integer]

/-- The section of the log says what the log settings are. -/
theorem tomlLog?_logEntries (s : LogSettings) :
    tomlLog? (.table (.mk .headed (logEntries s))) = some s := by
  obtain ⟨level, file⟩ := s
  cases file with
  | none =>
      simp [tomlLog?, tomlFields?, LogSettings.fieldNames, logEntries, Table.find?,
        Table.entries, orDefault, tomlText?]
  | some file =>
      simp [tomlLog?, tomlFields?, LogSettings.fieldNames, logEntries, Table.find?,
        Table.entries, orDefault, tomlText?]

theorem ofToml?_document (s : Settings) : ofToml? (document s).root = some s := by
  simp [ofToml?, document, Progress.within, tomlFields?, Settings.fieldNames, Table.find?,
    Table.entries, orDefault, tomlSlots?_slotEntries, tomlLog?_logEntries]

/-- **A saved configuration is read back.** -/
theorem ofText?_render (s : Settings) : ofText? s.render = some s := by
  have hmark : s.renderChars.head? ≠ some '\ufeff' := by
    rw [renderChars_eq]
    simp [header]
  have hparse := parse_of_reads hmark (reads_renderChars s)
  rw [ofText?, render, hparse, Option.bind_some, ofToml?_document]

/-! ## loading -/

/-- A text that was saved is found again. -/
theorem text_toUTF8 (text : String) : Content.text (.ok text.toUTF8) = .ok text := by
  have hbytes : String.fromUTF8? text.toUTF8 = some text := by
    rw [String.fromUTF8?, String.toUTF8_eq_toByteArray, dif_pos text.isValidUTF8]
    rfl
  rw [Content.text, hbytes]

/-- A configuration that is not usable is refused as one. -/
theorem category_of_validate {s : Settings} {e : Failure} (h : s.validate = .error e) :
    e.category = .configuration := by
  unfold validate at h
  split at h
  · cases h
    rfl
  split at h
  · cases h
    rfl
  · cases h

/-- **Loading a saved configuration gives that configuration, or why it is not usable.** -/
theorem load_saved (s : Settings) :
    ofText? s.render = some s ∧
      (s.validate = .ok () ∧ load (.ok s.render.toUTF8) = .ok s ∨
        ∃ e, s.validate = .error e ∧ e.category = .configuration ∧
          load (.ok s.render.toUTF8) = .error e) := by
  have hread := ofText?_render s
  have hload : load (.ok s.render.toUTF8) = s.validate.map fun () => s := by
    simp only [load, text_toUTF8, Except.bind, ofFileText, hread]
  refine ⟨hread, ?_⟩
  rw [hload]
  cases hvalid : s.validate with
  | ok u => exact .inl ⟨rfl, rfl⟩
  | error e => exact .inr ⟨e, rfl, category_of_validate hvalid, rfl⟩

end Settings

end SlotWatch
