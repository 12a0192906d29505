import Phrasebook.Command.Program
import Phrasebook.Proofs.Document.Entries

namespace Phrasebook

theorem Diagnostic.load_eq_ok_iff {path : String} {content : Except FileFault String}
    {result : Catalog × List Warning} :
    load path content = .ok result ↔
      ∃ text, content = .ok text ∧ Catalog.ofText text = .ok result := by
  cases content with
  | error fault => simp [load]
  | ok text => simp [load, mapError_eq_ok_iff]

variable {files : String → Except FileFault String} {args : List String}
  {env : String → Option String} {i : Invocation}

theorem Program.run_check {options : CheckOptions} (hparse : Invocation.parse args env = .ok i)
    (hcommand : i.command = .check options) :
    run files args env = Check.run files options i.verbose := by
  rw [run, hparse]
  simp only [execute, hcommand]

theorem Program.run_coverage {options : CoverageOptions}
    (hparse : Invocation.parse args env = .ok i) (hcommand : i.command = .coverage options) :
    run files args env = CoverageReport.run files options := by
  rw [run, hparse]
  simp only [execute, hcommand]

theorem Program.run_render {options : RenderOptions} (hparse : Invocation.parse args env = .ok i)
    (hcommand : i.command = .render options) :
    run files args env = Phrase.run files options i.verbose := by
  rw [run, hparse]
  simp only [execute, hcommand]

end Phrasebook
