import ParseAudit.FileSet
import ParseAudit.Invocation.Basic
/-!
# Planning the calls of the parser

Every file is handed to the parser in exactly one call.  In batch mode a call takes as many files
as fit into a command line, but at least one; otherwise every file has a call of its own.
-/

namespace ParseAudit

namespace Invocation

/-- The most octets that a command line should have. -/
def commandLineBudget : Nat := 30000

/-- What an argument costs: its octets, two quotes and a blank. -/
def argumentCost (arg : String) : Nat := arg.utf8ByteSize + 3

/-- What program and arguments cost before any file. -/
def fixedCost (program : String) (args : List String) : Nat :=
  argumentCost program + (args.map argumentCost).foldl (· + ·) 0

/-- Cuts files into runs whose cost stays within the budget.  `used` is the cost of the run that is
being filled, and `run` has its files, latest first. -/
def runsFrom (fixed budget used : Nat) (run : List RepoPath) : List RepoPath →
    List (List RepoPath)
  | [] => if run.isEmpty then [] else [run.reverse]
  | file :: files =>
    let cost := argumentCost file.text
    -- A run is cut only when it has a file already, so that a long name still gets a call.
    if !run.isEmpty && used + cost > budget then
      run.reverse :: runsFrom fixed budget (fixed + cost) [file] files
    else runsFrom fixed budget (used + cost) (file :: run) files

/-- The runs of files for which one command line is short enough. -/
def runs (program : String) (args : List String) (files : FileSet) : List (List RepoPath) :=
  let fixed := fixedCost program args
  runsFrom fixed commandLineBudget fixed [] files.toList

/-- The runs of files by mode. -/
def runsFor (settings : Settings) (files : FileSet) : List (List RepoPath) :=
  match settings.mode with
  | .batch => runs settings.parser settings.parserArgs files
  | .perFile => files.toList.map fun file => [file]

/-- The call for a run of files. -/
def forRun (settings : Settings) (directory : String) (run : List RepoPath) : Invocation where
  program := settings.parser
  args := settings.parserArgs ++ run.map RepoPath.text
  directory := directory

end Invocation

end ParseAudit
