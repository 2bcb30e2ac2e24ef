import Mips32.Config
import Mips32.Proofs.Json.Schemas

/-! Which texts hold a configuration, and which one (`ofText_exactly_conforming`). A value conforms
record by record: what it gives for a setting conforms in turn, and a setting that nothing is given
for is that of the default configuration, whether or not its section is there. -/
namespace Mips32

open Json (Gives Holds Laid Reader Says Setting TextOf)
open Json.Reader (Picks)

/-! ### Conforming values -/

def IsSwitch (v : Json) (b : Bool) : Prop := v = .bool b

/-- One of the names of a style, alone or as the only member of an object, with null. -/
def IsStyle (v : Json) (s : ReportStyle) : Prop :=
  (Picks v "Text" ∧ s = .text) ∨ ((Picks v "Json" ∨ Picks v "JSON" ∨ Picks v "json") ∧ s = .json)

def IsGeneral (v : Json) (c : GeneralConfig) : Prop :=
  ∃ given, Gives ["trace_decodes"] v given ∧
    Holds IsSwitch ({} : Config).general.traceDecodes (given "trace_decodes") c.traceDecodes

def IsReport (v : Json) (c : ReportConfig) : Prop :=
  ∃ given, Gives ["style", "show_bits", "annotate_fields"] v given ∧
    Holds IsStyle ({} : Config).report.style (given "style") c.style ∧
    Holds IsSwitch ({} : Config).report.showBits (given "show_bits") c.showBits ∧
    Holds IsSwitch ({} : Config).report.annotateFields (given "annotate_fields") c.annotateFields

def IsPrompt (v : Json) (c : PromptConfig) : Prop :=
  ∃ given, Gives ["text"] v given ∧ Holds Says ({} : Config).prompt.text (given "text") c.text

def IsConfig (v : Json) (c : Config) : Prop :=
  ∃ given, Gives ["general", "report", "prompt"] v given ∧
    Holds IsGeneral ({} : Config).general (given "general") c.general ∧
    Holds IsReport ({} : Config).report (given "report") c.report ∧
    Holds IsPrompt ({} : Config).prompt (given "prompt") c.prompt

/-! ### Readers -/

theorem reads_style : (Reader.variant Config.styleNames).Reads IsStyle := by
  refine (Reader.reads_variant _).congr fun v s => ?_
  have known (name : String) : Config.styleNames.lookup name = some s ↔
      (name = "Text" ∧ s = .text) ∨ ((name = "Json" ∨ name = "JSON" ∨ name = "json") ∧ s = .json) := by
    constructor
    · intro found
      obtain ⟨before, after, whole, -⟩ := List.lookup_eq_some_iff.mp found
      have member : (name, s) ∈ Config.styleNames := by
        rw [whole]
        simp
      simp only [Config.styleNames, List.mem_cons, Prod.mk.injEq, List.not_mem_nil, or_false]
        at member
      tauto
    · rintro (⟨rfl, rfl⟩ | ⟨rfl | rfl | rfl, rfl⟩) <;> rfl
  simp only [known, IsStyle]
  constructor
  · rintro ⟨name, ⟨rfl, rfl⟩ | ⟨rfl | rfl | rfl, rfl⟩, picks⟩ <;> simp [picks]
  · rintro (⟨picks, rfl⟩ | ⟨picks | picks | picks, rfl⟩)
    · exact ⟨"Text", by simp, picks⟩
    · exact ⟨"Json", by simp, picks⟩
    · exact ⟨"JSON", by simp, picks⟩
    · exact ⟨"json", by simp, picks⟩

def generalSettings : List (Setting GeneralConfig) :=
  [⟨"trace_decodes", Bool, .bool, IsSwitch, (·.traceDecodes), fun b c => { c with traceDecodes := b }⟩]

def reportSettings : List (Setting ReportConfig) :=
  [⟨"style", ReportStyle, .variant Config.styleNames, IsStyle, (·.style),
      fun s c => { c with style := s }⟩,
   ⟨"show_bits", Bool, .bool, IsSwitch, (·.showBits), fun b c => { c with showBits := b }⟩,
   ⟨"annotate_fields", Bool, .bool, IsSwitch, (·.annotateFields),
      fun b c => { c with annotateFields := b }⟩]

def promptSettings : List (Setting PromptConfig) :=
  [⟨"text", String, .string, Says, (·.text), fun t c => { c with text := t }⟩]

def configSettings : List (Setting Config) :=
  [⟨"general", GeneralConfig, Config.generalSchema.reader, IsGeneral, (·.general),
      fun g c => { c with general := g }⟩,
   ⟨"report", ReportConfig, Config.reportSchema.reader, IsReport, (·.report),
      fun r c => { c with report := r }⟩,
   ⟨"prompt", PromptConfig, Config.promptSchema.reader, IsPrompt, (·.prompt),
      fun p c => { c with prompt := p }⟩]

theorem laid_general : Laid Config.generalSchema generalSettings where
  members := rfl
  nodup := by decide
  reads := List.forall_mem_singleton.mpr Reader.reads_bool
  get_set := by simp [generalSettings]
  get_set_of_ne := by simp [generalSettings]
  ext := by
    rintro ⟨⟩ ⟨⟩ same
    simpa [generalSettings] using same

theorem laid_report : Laid Config.reportSchema reportSettings where
  members := rfl
  nodup := by decide
  reads := by
    simp only [reportSettings, List.forall_mem_cons]
    exact ⟨reads_style, Reader.reads_bool, Reader.reads_bool, nofun⟩
  get_set := by simp [reportSettings]
  get_set_of_ne := by simp [reportSettings]
  ext := by
    rintro ⟨⟩ ⟨⟩ same
    simpa [reportSettings] using same

theorem laid_prompt : Laid Config.promptSchema promptSettings where
  members := rfl
  nodup := by decide
  reads := List.forall_mem_singleton.mpr Reader.reads_string
  get_set := by simp [promptSettings]
  get_set_of_ne := by simp [promptSettings]
  ext := by
    rintro ⟨⟩ ⟨⟩ same
    simpa [promptSettings] using same

theorem reads_general : Config.generalSchema.reader.Reads IsGeneral :=
  laid_general.reads_reader.congr fun v c => by
    simp [Laid.Fits, IsGeneral, generalSettings, Setting.Agrees, Config.generalSchema]

theorem reads_report : Config.reportSchema.reader.Reads IsReport :=
  laid_report.reads_reader.congr fun v c => by
    simp [Laid.Fits, IsReport, reportSettings, Setting.Agrees, Config.reportSchema]

theorem reads_prompt : Config.promptSchema.reader.Reads IsPrompt :=
  laid_prompt.reads_reader.congr fun v c => by
    simp [Laid.Fits, IsPrompt, promptSettings, Setting.Agrees, Config.promptSchema]

theorem laid_config : Laid Config.schema configSettings where
  members := rfl
  nodup := by decide
  reads := by
    simp only [configSettings, List.forall_mem_cons]
    exact ⟨reads_general, reads_report, reads_prompt, nofun⟩
  get_set := by simp [configSettings]
  get_set_of_ne := by simp [configSettings]
  ext := by
    rintro ⟨⟩ ⟨⟩ same
    simpa [configSettings] using same

/-- **A text holds a configuration exactly when it is JSON whose value conforms**, and then the
configuration has the settings that the value gives, and the defaults for all others. -/
theorem ofText_exactly_conforming (text : String) (c : Config) :
    Config.ofText text = .ok c ↔ ∃ v, TextOf v text.toList ∧ IsConfig v c := by
  have read : Config.ofText text = .ok c ↔ Config.schema.ofText text = .ok c := by
    rw [Config.ofText]
    cases Config.schema.ofText text <;> simp [Except.mapError]
  rw [read, laid_config.ofText_eq_ok_iff]
  simp [Laid.Fits, IsConfig, configSettings, Setting.Agrees, Config.schema]

/-- A section without settings is as good as none. -/
example : Config.ofText "\x7b\"report\": \x7b\x7d\x7d" = .ok {} := by decide +kernel

end Mips32
