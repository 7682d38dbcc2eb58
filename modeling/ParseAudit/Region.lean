import ParseAudit.RepoPath
import ParseAudit.Text.Natural
/-!
# Error regions and records

The parser marks where it could not follow a file by an *error node*: a label and two points.  The
points are written from zero and kept from one; a coordinate at the top of the 32-bit range stays
there.  A `Record` says of one file that it parsed cleanly or where an error node lies.
-/

namespace ParseAudit

/-- A source position as a parser writes it: row and column, both from zero. -/
structure Point where
  row : UInt32
  column : UInt32
  deriving DecidableEq, Repr

/-- The next coordinate, or the same one at the top of the range. -/
def nextCoordinate (n : UInt32) : UInt32 :=
  if n == 0xFFFFFFFF then n else n + 1

/-- The place of an error node; lines and columns count from one. -/
structure Region where
  startLine : UInt32
  startColumn : UInt32
  endLine : UInt32
  endColumn : UInt32
  /-- What kind of node it is, such as `ERROR`. -/
  label : String
  deriving DecidableEq, Repr

/-- The decimal text of a coordinate. -/
def coordinateText (n : UInt32) : String := Text.natural n.toNat

/-- The place of something in a file.  Columns are given only within one line. -/
structure Location where
  path : RepoPath
  line : Option UInt32
  column : Option UInt32
  endLine : Option UInt32
  endColumn : Option UInt32
  deriving DecidableEq, Repr

namespace Location

/-- A location that names the file only. -/
def ofFile (path : RepoPath) : Location := ⟨path, none, none, none, none⟩

end Location

namespace Region

/-- The region between two points. -/
def ofPoints (label : String) (start stop : Point) : Region where
  startLine := nextCoordinate start.row
  startColumn := nextCoordinate start.column
  endLine := nextCoordinate stop.row
  endColumn := nextCoordinate stop.column
  label := label

/-- Whether the region reaches over several lines. -/
def isMultiline (r : Region) : Bool := r.startLine != r.endLine

/-- The location to report.  Column bounds mean nothing across lines, so they are left out there. -/
def location (r : Region) (path : RepoPath) : Location where
  path := path
  line := some r.startLine
  column := if r.isMultiline then none else some r.startColumn
  endLine := some r.endLine
  endColumn := if r.isMultiline then none else some r.endColumn

/-- Label and coordinates in one text, the same in every run. -/
def identity (r : Region) : String :=
  r.label ++ " [" ++ coordinateText r.startLine ++ ", " ++ coordinateText r.startColumn ++ "] - ["
    ++ coordinateText r.endLine ++ ", " ++ coordinateText r.endColumn ++ "]"

/-- The extent for a reader: `6:3-6:11` within a line, `lines 6-9` across lines. -/
def span (r : Region) : String :=
  if r.isMultiline then
    "lines " ++ coordinateText r.startLine ++ "-" ++ coordinateText r.endLine
  else
    coordinateText r.startLine ++ ":" ++ coordinateText r.startColumn ++ "-"
      ++ coordinateText r.endLine ++ ":" ++ coordinateText r.endColumn

end Region

/-- What one line of parser output says of one file. -/
structure Record where
  file : RepoPath
  /-- The error node, or `none` if the file parsed cleanly. -/
  region : Option Region
  /-- The trimmed line, or the path for a record that no line stands behind. -/
  raw : String
  deriving DecidableEq, Repr

namespace Record

/-- The record of a file that no error node was reported for. -/
def clean (file : RepoPath) : Record := ⟨file, none, file.text⟩

/-- Whether the record carries an error node. -/
def hasError (r : Record) : Bool := r.region.isSome

end Record

end ParseAudit
