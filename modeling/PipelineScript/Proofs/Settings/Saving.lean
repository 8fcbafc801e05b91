import PipelineScript.Json.Standard
import PipelineScript.Proofs.Json.Parsing
import PipelineScript.Proofs.Outcome
import PipelineScript.Proofs.Settings.JsonForm
import PipelineScript.Proofs.Settings.TomlForm
import PipelineScript.Proofs.Toml.Outlines
import PipelineScript.Settings.Storage
import PipelineScript.Toml.Standard

/-
  Settings that were saved are loaded as they were, from files
  of either kind.

  Key theorems include:
    * `Settings.exists_read_of_save`
    * `Settings.exists_ofText_of_textFor`
    * `Settings.load_of_save`
-/

namespace PipelineScript

------------------------------------------------------------
-- Files
------------------------------------------------------------

namespace FileTask

/- What was written without a failure can be read. -/
theorem read_of_writeText
    {path content : String}
    {failure : FileFault → Failure}
    {tree : FileTree}
    (hWrite :
      ((writeText path content failure).run tree).1.outcome =
        .ok ()) :
    ((writeText path content failure).run tree).2.read path =
      .ok content := by
  rw [writeText, run] at hWrite ⊢
  split at hWrite
  · next written hWritten =>
      exact FileTree.read_of_write hWritten
  · simp [orFail, run, Traced.mapError,
      Traced.ofExcept] at hWrite

/- What a task does last is done to what it did before. -/
theorem of_bind_ok
    {α β : Type}
    {task : FileTask α}
    {next : α → FileTask β}
    {tree : FileTree}
    {value : β}
    (hOk : ((task.bind next).run tree).1.outcome = .ok value) :
    ∃ first,
      (task.run tree).1.outcome = .ok first ∧
        ((next first).run (task.run tree).2).1.outcome =
            .ok value ∧
          ((task.bind next).run tree).2 =
            ((next first).run (task.run tree).2).2 := by
  rw [run_bind] at hOk ⊢
  split at hOk
  · next first hFirst => exact ⟨first, hFirst, hOk, rfl⟩
  · simp at hOk

end FileTask

namespace Settings

variable {settings : Settings} {path : String}

/- What is wrong with settings does not depend on imports. -/
theorem IsReloaded.problem_eq
    {loaded : Settings}
    (hSame : settings.IsReloaded loaded) :
    loaded.problem? = settings.problem? := by
  rw [problem?, problem?, hSame.indent, hSame.entrypoint]

/- Settings pass the check if nothing is wrong with them. -/
theorem check_outcome_iff :
    settings.check.outcome = .ok () ↔
      settings.problem? = none := by
  unfold check
  cases settings.problem? with
  | none =>
      dsimp only
      split
      · simp
      · simp
  | some problem => simp [Traced.fail]

section Libraries

variable [Json.Codec] [Toml.Codec]

/- The text of settings, as what a task comes to. -/
def printing
    (settings : Settings)
    (path : String) : FileTask String :=
  .done ((Traced.ofExcept (settings.textFor path)).mapError
    .settings)

/- The text of settings, put into the file at a path. -/
def writing
    (settings : Settings)
    (path : String) : FileTask Unit :=
  (settings.printing path).bind fun text =>
    FileTask.writeText path text fun fault =>
      .settings (.unwritable path fault)

/- The last thing that saving does is to write the text. -/
theorem save_eq
    (settings : Settings)
    (path : String) :
    settings.save path =
      if Path.parent path != "" then
        (FileTask.ensureDirectories (Path.parent path)
          fun fault => .settings (.noDirectory fault)).bind
            fun _ => settings.writing path
      else
        settings.writing path := by
  unfold save
  split
  · rfl
  · rfl

/- A text that was written was printed, and is in the file. -/
theorem exists_read_of_writing
    {tree : FileTree}
    (hWriting :
      ((settings.writing path).run tree).1.outcome = .ok ()) :
    ∃ text,
      settings.textFor path = .ok text ∧
        ((settings.writing path).run tree).2.read path =
          .ok text := by
  rcases FileTask.of_bind_ok hWriting with
    ⟨text, hPrint, hWrite, hTree⟩
  have hText : settings.textFor path = .ok text := by
    rw [printing, FileTask.run, Traced.outcome_mapError_eq_ok,
      Traced.outcome_ofExcept] at hPrint
    exact hPrint
  refine ⟨text, hText, ?_⟩
  rw [writing, hTree]
  exact FileTask.read_of_writeText hWrite

/- A file that was saved has the text of the settings. -/
theorem exists_read_of_save
    {tree : FileTree}
    (hSave :
      ((settings.save path).run tree).1.outcome = .ok ()) :
    ∃ text,
      settings.textFor path = .ok text ∧
        ((settings.save path).run tree).2.read path =
          .ok text := by
  rw [save_eq] at hSave ⊢
  split at hSave
  · next hParent =>
      rcases FileTask.of_bind_ok hSave with
        ⟨_, -, hWriting, hTree⟩
      rw [if_pos hParent, hTree]
      exact exists_read_of_writing hWriting
  · next hParent =>
      rw [if_neg hParent]
      exact exists_read_of_writing hSave

/- What is read from a file is taken for settings. -/
theorem outcome_load
    {text : String}
    {tree : FileTree}
    (hRead : tree.read path = .ok text) :
    ((load path).run tree).1.outcome =
      ((checkedOfText path text).mapError
        Failure.settings).outcome := by
  change
    (((FileTask.readText path _).bind _).run tree).1.outcome = _
  rw [FileTask.run_bind, FileTask.readText, FileTask.run, hRead]
  rfl

------------------------------------------------------------
-- Texts
------------------------------------------------------------

/- Settings are read back from the text for a path. -/
theorem exists_ofText_of_textFor
    (hJson : Json.Codec.IsFaithful)
    (hToml : Toml.Codec.IsFaithful)
    {text : String}
    (hText : settings.textFor path = .ok text) :
    ∃ loaded,
      (ofText path text).outcome = .ok loaded ∧
        settings.IsReloaded loaded := by
  unfold textFor at hText
  unfold ofText
  split at hText
  · next hIsToml =>
      rcases
          exists_decodeToml_of_print hToml
            (mapError_eq_ok.mp hText) with
        ⟨loaded, hLoaded, hSame⟩
      rw [if_pos hIsToml, hLoaded]
      exact ⟨loaded, rfl, hSame⟩
  · next hIsToml =>
      rcases settings.exists_decodeJson_print hJson with
        ⟨printed, hPrint, hLoaded⟩
      have hSame := mapError_eq_ok.mp hText
      rw [hPrint, Except.ok.injEq] at hSame
      rw [if_neg hIsToml, ← hSame, hLoaded]
      exact ⟨settings, rfl, settings.isReloaded_self⟩

------------------------------------------------------------
-- Saving and Loading
------------------------------------------------------------

/-
  Settings that pass the check and could be saved are loaded
  from the same path, as TOML or as JSON: what they say is the
  same, down to lists and tables without anything in them. The
  libraries for both formats are only asked to read what they
  write.
-/
theorem load_of_save
    (hJson : Json.Codec.IsFaithful)
    (hToml : Toml.Codec.IsFaithful)
    {tree : FileTree}
    (hCheck : settings.check.outcome = .ok ())
    (hSave :
      ((settings.save path).run tree).1.outcome = .ok ()) :
    ∃ loaded,
      ((load path).run
        ((settings.save path).run tree).2).1.outcome =
          .ok loaded ∧
        settings.IsReloaded loaded := by
  rcases exists_read_of_save hSave with ⟨text, hText, hRead⟩
  rcases exists_ofText_of_textFor hJson hToml hText with
    ⟨loaded, hOfText, hSame⟩
  have hLoaded : loaded.check.outcome = .ok () := by
    rw [check_outcome_iff] at hCheck ⊢
    rw [hSame.problem_eq, hCheck]
  have hChecked :
      (checkedOfText path text).outcome = .ok loaded := by
    rw [checkedOfText, Traced.outcome_bind_eq_ok]
    refine ⟨loaded, hOfText, ?_⟩
    rw [Traced.outcome_bind_eq_ok]
    refine ⟨(), hLoaded, ?_⟩
    rw [Traced.outcome_bind_eq_ok]
    exact ⟨(), rfl, rfl⟩
  refine ⟨loaded, ?_, hSame⟩
  rw [outcome_load hRead,
    Traced.outcome_mapError_of_ok _ hChecked]

end Libraries

/- Settings that import nothing. -/
def bare : Settings where
  indent := "\t"
  entrypoint := "run"
  deviceSetup := false
  strictModels := true
  imports := .empty

/- Settings with imports of all forms, and a tag without any. -/
def laden : Settings where
  indent := "  "
  entrypoint := "start"
  deviceSetup := true
  strictModels := false
  imports :=
    { defaults :=
        [⟨"numpy", some "np", none⟩, ⟨"torch", none, some "nn"⟩]
      forTags :=
        .ofList
          [("KMeans", [⟨"sklearn.cluster", some "", none⟩]),
            ("a \"b\"\n.c", []), ("Linear", [])] }

/- The standard libraries give back both, in either format. -/
theorem load_of_save_laden :
    (∃ loaded,
      ((load "conf/a.toml").run
        ((laden.save "conf/a.toml").run .empty).2).1.outcome =
          .ok loaded ∧
        laden.IsReloaded loaded) ∧
      (∃ loaded,
        ((load "a.json").run
          ((laden.save "a.json").run .empty).2).1.outcome =
            .ok loaded ∧
          laden.IsReloaded loaded) ∧
      ∃ loaded,
        ((load "a.toml").run
          ((bare.save "a.toml").run .empty).2).1.outcome =
            .ok loaded ∧
          bare.IsReloaded loaded := by
  have hLaden : laden.check.outcome = .ok () := by
    decide +kernel
  have hBare : bare.check.outcome = .ok () := by
    decide +kernel
  have hToml :
      ((laden.save "conf/a.toml").run .empty).1.outcome =
        .ok () := by
    decide +kernel
  have hJson :
      ((laden.save "a.json").run .empty).1.outcome =
        .ok () := by
    decide +kernel
  have hSave :
      ((bare.save "a.toml").run .empty).1.outcome = .ok () := by
    decide +kernel
  exact ⟨load_of_save Json.standard_isFaithful
      Toml.standard_isFaithful hLaden hToml,
    load_of_save Json.standard_isFaithful
      Toml.standard_isFaithful hLaden hJson,
    load_of_save Json.standard_isFaithful
      Toml.standard_isFaithful hBare hSave⟩

end Settings

end PipelineScript
