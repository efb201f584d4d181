import TagTemplate.CommandLine.Run
import TagTemplate.Log.Filter

/-!
# The program as a function

From the arguments, the files, the input and what the surroundings want logged, to all that can be
seen afterwards.
-/

namespace TagTemplate

structure Outcome where
  code : Nat
  output : String := ""
  /-- Pieces of the filter that were passed over, each with the reason. -/
  ignored : List (String × RuleFault) := []
  /-- The records that are shown. -/
  records : List LogRecord := []
  failure : Option Failure := none
  files : FileSystem

namespace Outcome

/-- What is told about the filter, a line for each piece that was passed over. -/
def warnings (o : Outcome) : List String :=
  o.ignored.map fun (piece, fault) => "ignoring `" ++ piece ++ "`: " ++ fault.message

/-- What is told after that, one piece of text for each thing: records, and the failure at the
end. -/
def told (o : Outcome) : List String :=
  o.records.map LogRecord.line ++ o.failure.toList.map fun f => "Error: " ++ f.message

end Outcome

/-- The filter that the settings of a command's project give, if they can be had. -/
def loggingText (files : FileSystem) (command : Command) : String :=
  match command.root?.map (Settings.load files) with
  | some (.ok settings) => settings.logging
  | _ => ({} : Settings).logging

/-- Runs the program. `logging` is the filter that the surroundings give; one that is not valid
as a whole is not used. `budget` bounds the nesting of a rendering; no outcome if it does not
suffice. -/
def runProgram (arguments : List String) (files : FileSystem) (input : Content)
    (logging : Option String) (budget : Nat := ampleBudget) : Option Outcome :=
  match Command.ofArguments arguments with
  | .error .misuse => some { code := 2, files }
  | .error .help => some { code := 0, files }
  | .ok command =>
    let (filter, ignored) := match logging.bind LogFilter.ofText? with
      | some filter => (filter, [])
      | none =>
        let text := loggingText files command
        (LogFilter.ofRules text, LogFilter.faults text)
    ((command.run budget).run { files, input }).map fun (result, s) =>
      let records := s.records.filter filter.shows
      match result with
      | .ok _ => { code := 0, output := s.output, ignored, records, files := s.files }
      | .error failure =>
        { code := 1, output := s.output, ignored, records, failure := some failure,
          files := s.files }

end TagTemplate
