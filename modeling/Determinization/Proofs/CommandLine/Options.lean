import Determinization.CommandLine.Run
import Determinization.Proofs.Encoding.Conversion
import Determinization.Proofs.Encoding.Trimming

/-!
# What the options of the command change

A run of the command reads its arguments, a file with settings if one is named, and a text; then it
converts the text as the settings say.  `readJob` is the first half of a run, and with the job that
it finds the run does what `convertWith` says and nothing else.  So what options can change of the
output is what settings can change of the output of `convertWith`.

The settings are of three kinds.

* Whether to number the states, and the format, decide what is printed.
* Whether to prune first, and the order of the worklist, are about how the deterministic automaton
  is made.  It is the same automaton either way, state by state (`determinize_fst`).
* The logger writes to another output.

So the output depends on the settings of the first kind alone.  With the standard ones it is what
the library converts the text to, and a line break.
-/

namespace Determinization
namespace CommandLine

/-! ## The result under all settings -/

variable {a : Automaton} {text : List Char} {s : Settings}

/-- The deterministic automaton that is printed. -/
def result (numbered : Bool) (a : Automaton) : Dfa :=
  if numbered then (a.toDfa .fifo).canonicalize else a.toDfa .fifo

/-- **How the deterministic automaton is made does not show in it.** -/
theorem determinize_fst (ha : a.Consistent) (s : Settings) :
    (determinize s a).1 = result s.canonicalize a := by
  have hkept : (if s.removeUnreachable then a.removeUnreachable else a).toDfa s.subset.order =
      a.toDfa .fifo := by
    split
    · exact Automaton.toDfa_removeUnreachable ha _ _
    · exact Automaton.toDfa_eq_toDfa ha _ _
  rw [determinize, result, ← hkept]

/-- What can be read is converted, whatever the settings. -/
theorem exists_convertWith (h : Automaton.parse text = .ok a) (s : Settings) :
    ∃ log, convertWith s text =
      .success (Text.trimEnd (render (result s.canonicalize a) s.format) ++ ['\n']) log := by
  have ha := Automaton.consistent_of_parse h
  have hread := Automaton.parse_trim h
  rw [convertWith, hread, ← determinize_fst ha]
  exact ⟨_, rfl⟩

/-- The standard settings print what the library converts the text to. -/
theorem output_eq_convert (h : Automaton.parse text = .ok a) (hnumbered : s.canonicalize = true)
    (hformat : s.format = .encoding) :
    ∃ t, convert text = .ok t ∧ (convertWith s text).output = t ++ ['\n'] := by
  obtain ⟨log, hrun⟩ := exists_convertWith h s
  refine ⟨a.standard.encode, Automaton.convert_of_parse h, ?_⟩
  have hresult : render (result s.canonicalize a) s.format = a.standard.encode := by
    rw [hnumbered, hformat]
    rfl
  rw [hrun, hresult, Automaton.trimEnd_encode]
  rfl

/-- **The options of the command do not change its result.**  Whatever is asked for in the arguments
and in the file with settings, a run converts one text under some settings.

* Settings that agree on numbering and on the format give the same output and the same exit code,
  whatever they say about pruning, the worklist and the logger, and whatever the text.
* A text that can be read is converted: the output is the one automaton `result` in the chosen
  format, and with the standard settings what the library converts the text to, then a line break.
  The white space that is trimmed on the way takes nothing away.

No bound on the number of states is needed for this. -/
theorem execute_ignores_options :
    (∀ {m : Type → Type} [Monad m] [LawfulMonad m]
        (readFile : List Char → m (Except FileError (List Char))) (readInput : m (List Char))
        (args : List (List Char)),
        execute readFile readInput args = finish <$> readJob readFile readInput args) ∧
      (∀ (text : List Char) (s s' : Settings), s.canonicalize = s'.canonicalize →
        s.format = s'.format →
          (convertWith s text).output = (convertWith s' text).output ∧
            (convertWith s text).exitCode = (convertWith s' text).exitCode) ∧
      ∀ (text : List Char) (a : Automaton), Automaton.parse text = .ok a → ∀ s : Settings,
        (∃ log, convertWith s text = .success
          (Text.trimEnd (render (result s.canonicalize a) s.format) ++ ['\n']) log) ∧
        (s.canonicalize = true → s.format = .encoding →
          ∃ t, convert text = .ok t ∧ (convertWith s text).output = t ++ ['\n']) := by
  refine ⟨fun _ _ _ => rfl, fun text s s' hnumbered hformat => ?_, fun text a h s => ?_⟩
  · rcases hread : Automaton.parse (Text.trim text) with e | a
    · rw [convertWith, convertWith, hread]
      exact ⟨rfl, rfl⟩
    · have ha := Automaton.consistent_of_parse hread
      have hsame : (determinize s a).1 = (determinize s' a).1 := by
        rw [determinize_fst ha, determinize_fst ha, hnumbered]
      simp only [convertWith, hread, Outcome.output, Outcome.exitCode, hsame, hformat, and_self]
  · exact ⟨exists_convertWith h s, output_eq_convert h⟩

/-- The text of an automaton with blanks around it. -/
def spacedText : List Char := "\r\n 0 1 2 / b a / 0,a,0; 0,b,0; 0,a,1; 1,,2 / 0 / 2\t\n".toList

/-- The text of settings that differ from the standard ones wherever this cannot be seen. -/
def carefulText : List Char :=
  ("remove_unreachable = true\n[subset_construction]\nworklist = \"lifo\"\n" ++
    "[logger]\nenabled = true\nlog_level = \"debug\"\n").toList

/-- The settings with that text. -/
def careful : Settings where
  removeUnreachable := true
  subset := ⟨.lifo⟩
  logger := ⟨true, .debug⟩

/-- The two texts as files. -/
def twoFiles (path : List Char) : Except FileError (List Char) :=
  if path = ['a'] then .ok spacedText
  else if path = ['s'] then .ok carefulText
  else .error .missing

/-- The arguments that name the files. -/
def carefulArguments : List (List Char) :=
  ["--file".toList, "a".toList, "-cs".toList]

theorem parse_spacedText : Automaton.parse spacedText = .ok Automaton.lastLetter := by
  cbv

theorem ofText?_carefulText : Settings.ofText? carefulText = some careful := by
  decide +kernel

/-- The job of a run on the two files. -/
theorem readJob_careful :
    readJob (m := Id) twoFiles (pure []) carefulArguments = .ok ⟨careful, spacedText⟩ := by
  have harguments : readArguments carefulArguments =
      .ok (.run ⟨none, some ['a'], some ['s'], none⟩) := by cbv
  have hconfig : readOptional (m := Id) twoFiles (some ['s']) =
      pure (.ok (some carefulText)) := rfl
  have hsettings : settingsFor ⟨none, some ['a'], some ['s'], none⟩ (some carefulText) =
      some careful := by
    simp only [settingsFor, ofText?_carefulText, Option.map_some]
  have htext : readText (m := Id) twoFiles (pure []) ⟨none, some ['a'], some ['s'], none⟩ =
      pure (.ok spacedText) := rfl
  rw [readJob, harguments]
  dsimp only
  rw [hconfig, pure_bind]
  dsimp only
  rw [hsettings]
  dsimp only
  rw [htext, pure_bind]
  rfl

theorem execute_ignores_options_careful :
    execute (m := Id) twoFiles (pure []) carefulArguments = convertWith careful spacedText ∧
      (convertWith careful spacedText).output = (convertWith {} spacedText).output ∧
      ∃ t, convert spacedText = .ok t ∧ (convertWith careful spacedText).output = t ++ ['\n'] := by
  have hfinish : ∀ job : Job, Functor.map (f := Id) finish (.ok job) =
      convertWith job.settings job.text := fun _ => rfl
  have hrun := execute_ignores_options.1 (m := Id) twoFiles (pure []) carefulArguments
  rw [readJob_careful, hfinish] at hrun
  have hsame := execute_ignores_options.2.1 spacedText careful {} rfl rfl
  have hconvert := execute_ignores_options.2.2 spacedText _ parse_spacedText careful
  exact ⟨hrun, hsame.1, hconvert.2 rfl rfl⟩

end CommandLine
end Determinization
