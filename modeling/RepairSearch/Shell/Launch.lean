import RepairSearch.Project.Launcher
import RepairSearch.Shell.Evaluation

/-!
# Launching commands

The shell as a launcher. A command runs as a process without input; what it writes for the user
and for errors goes to one log.
-/

namespace RepairSearch.Shell

open Files

/-- The machine that a command starts on. -/
private def start (job : Project.Job) (fs : System) : Machine where
  files := fs
  bindings := job.environment.reverse
  exported := job.environment.map (·.1)
  status := 0
  written := []
  next := 1
  elapsed := 0
  deadline := job.timeout.map (· * 1000)

/-- How a command has ended, from the machine that it leaves. -/
private def endingOf (stopped : Except Stop Unit) (m : Machine) : Project.Ending :=
  match stopped with
  | .error .late => .timedOut
  | _ => if m.status = 0 then .success else .failed (Run.textOf m 0).toString

/-- Runs a command in its directory. -/
def launch : Project.Launcher := fun job fs =>
  let command := Command.ofLine job.line
  match fs.find job.directory with
  | .error fault => (.error fault, fs)
  | .ok (names, _) =>
    let inside := { fs with workingDirectory := names }
    match Program.find inside command.program with
    | .error fault => (.error fault, fs)
    | .ok program =>
      let p : Process :=
        { name := command.program, arguments := command.arguments, number := 0, input := []
          output := .channel 0, errors := .channel 0 }
      let (stopped, m) := (program.run (runText levels) p).run.run (start job inside)
      (.ok ⟨endingOf stopped m, m.elapsed / 1000⟩,
        { m.files with workingDirectory := fs.workingDirectory })

end RepairSearch.Shell
