import PanelExport.Proofs.Files.ExportNames
import PanelExport.Proofs.Session.Naming
import PanelExport.Proofs.Session.Opened

/-!
# Where exports are saved

A session names an export after its panel, with a name that the saving keeps. So the file stands
right in the directory, under the name that the export tells, however the panel is titled.

* `filename_isExportName`: what a session names its exports.
* `Turn.saveText_of_exported`: what a complete export has saved.
* `export_stays_in_directory`: names and places of all exports.
-/

namespace PanelExport

/-- An export saved its text under its name, right in the directory. -/
structure Export.SavedIn (e : Export) (directory : String) (files files' : FileTree) : Prop where
  path : e.path? = some ((Path.ofText directory).child e.filename)
  place : ((Path.ofText directory).child e.filename).place =
    (Path.ofText directory).place ++ [e.filename]
  wrote : files.Wrote ((Path.ofText directory).place ++ [e.filename]) e.text files'

namespace Session

variable {s : Session} {params : ExportParams} {options : ExportOptions}

/-- Whatever panel a session holds, its exports have a name that the saving keeps. -/
theorem filename_isExportName (h : s.Consistent params) : IsExportName s.filename := by
  rcases h with ⟨hnone, -⟩ | ⟨panel, hpanel, -, hid, -⟩
  · simp only [filename, hnone]
    exact isExportName_defaultName
  · simp only [filename, hpanel, Option.map_some, Option.getD_some, Panel.exportName, hid]
    exact isExportName_exportNameOf _ _

theorem saveText_of_exported {batch : Batch} {reply : Except CallFault Document} {e : Export}
    (h : (s.resumeResults options batch reply).next = .ends (.exported e)) :
    s.saveText options e.text =
      .ok (e.path?, (s.resumeResults options batch reply).session.files) := by
  unfold resumeResults at h ⊢
  split at h
  · cases h
  · split at h
    · cases h
    · split at h
      · cases h
      · rename_i result _
        unfold finishExport at h ⊢
        split at h
        · cases h
        · rename_i hsave
          cases h
          simp_all [endExport]

/-- What an export with a proper name saves is saved right in its directory. -/
theorem savedIn_of_saveText {e : Export} {files : FileTree} (hname : IsExportName s.filename)
    (hfile : e.filename = s.filename) (hsave : options.save = true)
    (h : s.saveText options e.text = .ok (e.path?, files)) :
    e.SavedIn ((nonempty? options.directory?).getD s.settings.outputDirectory) s.files files := by
  rw [saveText, if_pos hsave] at h
  obtain ⟨⟨path, files'⟩, hsaved, heq⟩ := exceptMap_eq_ok.1 h
  obtain ⟨hpath, rfl⟩ := Prod.mk.inj heq
  obtain ⟨-, -, -, -, rfl, -⟩ := (FileTree.save_eq_ok_iff hname).1 hsaved
  have hup : s.filename ≠ ".." := hname.ne_of_length_lt (by decide)
  have hplace := Path.place_child hup
    (Path.ofText ((nonempty? options.directory?).getD s.settings.outputDirectory))
  rw [← hfile] at hpath hplace hsaved
  exact ⟨hpath.symm, hplace, hplace ▸ FileTree.save_wrote hsaved⟩

end Session

namespace Exchange

/-- The name of an export is not empty, has no character in it that a file system forbids, ends with
the extension and leads neither nowhere nor up, whatever the title of the panel is, and saving keeps
it. So a file that is saved under it stands right in the directory, and nothing but the directory or
the name itself keeps it from being saved. In every course of a session, a complete export that was
to be saved is saved so, under the name that it tells, and any other has saved nothing. Replacing
what is forbidden in names twice is replacing it once, and what has nothing forbidden and something
visible is kept as it is. -/
theorem export_stays_in_directory :
    (∀ (panel : Panel) (id : Int), panel.id = .int id →
      panel.exportName ≠ "" ∧
      (∀ c ∈ "/\\:*?\"<>|".toList, c ∉ panel.exportName.toList) ∧
      (∃ stem, panel.exportName = stem ++ ".prom") ∧
      panel.exportName ≠ "." ∧ panel.exportName ≠ ".." ∧
      sanitizeName panel.exportName defaultName = panel.exportName ∧
      ∀ (t t' : FileTree) (directory text : String) (path : Path),
        t.save directory panel.exportName text = .ok (path, t') ↔
          ∃ made, t.makeDirectory (Path.ofText directory) = .ok made ∧
            FileTree.CanStand panel.exportName ∧ made.isDirectory path.place = false ∧
            path = (Path.ofText directory).child panel.exportName ∧
            path.place = (Path.ofText directory).place ++ [panel.exportName] ∧
            t' = made.write path.place text) ∧
    (∀ params settings files course stimulus (e : Export),
      let x := ((create params settings files).run course).1
      let y := (x.advance stimulus).1
      (x.advance stimulus).2.exported? = some e →
        ∃ (number : Nat) (options : ExportOptions),
          x.calls[number]? = some (.waits (.results options e.batch)) ∧
          e.filename = x.session.filename ∧
          (options.save = true →
            e.SavedIn ((nonempty? options.directory?).getD settings.outputDirectory)
              x.session.files y.session.files) ∧
          (options.save = false → e.path? = none ∧ y.session.files = x.session.files)) ∧
    (∀ name, sanitizeName (sanitizeName name defaultName) defaultName =
      sanitizeName name defaultName) ∧
    ∀ name, isBlankText name = false → (∀ c ∈ "/\\:*?\"<>|".toList, c ∉ name.toList) →
      sanitizeName name defaultName = name := by
  refine ⟨fun panel id hid => ?_, fun params settings files course stimulus e => ?_, fun name => ?_,
    fun name hvisible hallowed => ?_⟩
  · have hname : IsExportName panel.exportName := by
      rw [Panel.exportName, hid]
      exact isExportName_exportNameOf _ _
    have hup : panel.exportName ≠ ".." := hname.ne_of_length_lt (by decide)
    refine ⟨hname.ne_of_length_lt (by decide), forbidden_notMem_iff.2 hname.allowed,
      hname.extension, hname.ne_of_length_lt (by decide), hup, hname.sanitizeName_eq _, ?_⟩
    intro t t' directory text path
    rw [FileTree.save_eq_ok_iff hname]
    refine exists_congr fun made => and_congr_right fun _ => and_congr_right fun _ =>
      and_congr_right fun _ => and_congr_right fun hpath => ?_
    rw [hpath, and_iff_right (Path.place_child hup _)]
  · intro x y he
    obtain ⟨number, options, _, -, hwaits, hfile, hends, hsession⟩ := resumed_of_exported he
    have hsaved := hsession ▸ Session.saveText_of_exported hends
    obtain ⟨-, hsettings⟩ : x.session.params = params ∧ x.session.settings = settings :=
      run_params _ course
    have hname := Session.filename_isExportName (run_consistent params settings files course)
    refine ⟨number, options, hwaits, hfile, fun hsave => ?_, fun hsave => ?_⟩
    · rw [← hsettings]
      exact Session.savedIn_of_saveText hname hfile hsave hsaved
    · rw [Session.saveText, if_neg (by simp [hsave])] at hsaved
      obtain ⟨hpath, hfiles⟩ := Prod.mk.inj (Except.ok.inj hsaved)
      exact ⟨hpath.symm, hfiles.symm⟩
  · exact (isFileName_sanitizeName_default name).sanitizeName_eq _
  · exact IsFileName.sanitizeName_eq ⟨forbidden_notMem_iff.1 hallowed, hvisible⟩ _

/-- A panel is loaded whose title looks like a path, and an export of it sends its batch. -/
def pathTitled : List Stimulus :=
  [.load, .reply 0 (dashboardReply "../CPU / Memory" "up"), .export ⟨some "out", none, true⟩]

theorem export_stays_in_directory_pathTitled :
    (∃ e directory,
      ((onePanel.run pathTitled).1.advance (.reply 1 (.ok (.object [])))).2.exported? = some e ∧
      e.path? = some ⟨"", ["out", ".._CPU _ Memory.prom"]⟩ ∧
      e.SavedIn directory (onePanel.run pathTitled).1.session.files
        ((onePanel.run pathTitled).1.advance (.reply 1 (.ok (.object [])))).1.session.files) ∧
    (∃ stem, exportNameOf (.int 42) (some "///") = stem ++ ".prom") ∧
    sanitizeName "CPU usage.prom" defaultName = "CPU usage.prom" := by
  obtain ⟨hpanel, hcourse, -, hkept⟩ := export_stays_in_directory
  refine ⟨?_, ?_, ?_⟩
  · have hevaluated : ((onePanel.run pathTitled).1.advance
        (.reply 1 (.ok (.object [])))).2.exported?.map (·.path?) =
          some (some ⟨"", ["out", ".._CPU _ Memory.prom"]⟩) := by
      decide +kernel
    obtain ⟨e, he, hpath⟩ := Option.map_eq_some_iff.1 hevaluated
    obtain ⟨-, options, -, -, hsaved, hunsaved⟩ := hcourse _ _ _ pathTitled _ e he
    have hsave : options.save = true := by
      by_contra hsave
      rw [(hunsaved (Bool.eq_false_iff.2 hsave)).1] at hpath
      cases hpath
    exact ⟨e, _, he, hpath, hsaved hsave⟩
  · exact (hpanel ⟨.int 42, "board", some "///", none, [], []⟩ 42 rfl).2.2.1
  · exact hkept "CPU usage.prom" (by decide)
      (forbidden_notMem_iff.2 (allowed_of_all (by decide)))

end Exchange

end PanelExport
