import ParseAudit.Text.Blank
/-!
# Lines and separators

A text is read as lines that end in a line feed; one carriage return right before the line feed
belongs to the line end.  What follows the last line feed is a line too unless it is empty.
Beside the lines stand the two ways to cut a text at a separator, at its first and at its last
occurrence.  `splitLast_eq_some` says that nothing is lost by a cut of the second kind.
-/

namespace ParseAudit.Chars

/-- The lines of a text, without their line ends. -/
def lines : List Char → List (List Char)
  | [] => []
  | '\n' :: cs => [] :: lines cs
  | '\r' :: '\n' :: cs => [] :: lines cs
  | c :: cs =>
    match lines cs with
    | [] => [[c]]
    | l :: ls => (c :: l) :: ls

/-- The text before and after the first occurrence of a separator. -/
def splitFirst (sep : List Char) : List Char → Option (List Char × List Char)
  | [] => none
  | c :: cs =>
    if sep.isPrefixOf (c :: cs) then some ([], (c :: cs).drop sep.length)
    else (splitFirst sep cs).map fun (before, after) => (c :: before, after)

/-- The text before and after the last occurrence of a separator. -/
def splitLast (sep : List Char) : List Char → Option (List Char × List Char)
  | [] => none
  | c :: cs =>
    match splitLast sep cs with
    | some (before, after) => some (c :: before, after)
    | none => if sep.isPrefixOf (c :: cs) then some ([], (c :: cs).drop sep.length) else none

/-- The text without a given start, if it has that start. -/
def stripStart? (start s : List Char) : Option (List Char) :=
  if start.isPrefixOf s then some (s.drop start.length) else none

/-- The text without a given end, if it has that end. -/
def stripEnd? (stop s : List Char) : Option (List Char) :=
  if stop.isSuffixOf s then some (s.take (s.length - stop.length)) else none

theorem eq_append_drop_of_isPrefixOf {p s : List Char} (h : p.isPrefixOf s = true) :
    s = p ++ s.drop p.length := by
  obtain ⟨t, rfl⟩ := List.isPrefixOf_iff_prefix.1 h
  simp

/-- A cut at the last separator loses nothing. -/
theorem splitLast_eq_some {sep s a b : List Char} (h : splitLast sep s = some (a, b)) :
    s = a ++ sep ++ b := by
  induction s generalizing a with
  | nil => simp [splitLast] at h
  | cons c cs ih =>
    unfold splitLast at h
    split at h
    next a' b' hs =>
      simp only [Option.some.injEq, Prod.mk.injEq] at h
      obtain ⟨rfl, rfl⟩ := h
      simpa using ih hs
    next =>
      split at h
      next hp =>
        simp only [Option.some.injEq, Prod.mk.injEq] at h
        obtain ⟨rfl, rfl⟩ := h
        simpa using eq_append_drop_of_isPrefixOf hp
      next => simp at h

/-- Replaces every occurrence of a text, found from left to right, by another one.  An empty text
is left alone. -/
def replaceAll (old new s : List Char) : List Char :=
  if old = [] then s else go s.length s
where
  /-- The fuel bounds the number of characters that are left. -/
  go : Nat → List Char → List Char
    | 0, s => s
    | _ + 1, [] => []
    | fuel + 1, c :: cs =>
      if old.isPrefixOf (c :: cs) then new ++ go fuel ((c :: cs).drop old.length)
      else c :: go fuel cs

end ParseAudit.Chars

namespace ParseAudit.Text

/-- The lines of a text, without their line ends. -/
def lines (s : String) : List String := (Chars.lines s.toList).map String.ofList

/-- Replaces every occurrence of a text by another one. -/
def replaceAll (old new s : String) : String :=
  String.ofList (Chars.replaceAll old.toList new.toList s.toList)

/-- Whether a text has the given start. -/
def hasStart (start s : String) : Bool := start.toList.isPrefixOf s.toList

/-- Whether a text has the given end. -/
def hasEnd (stop s : String) : Bool := stop.toList.isSuffixOf s.toList

/-- The text without a given start, if it has that start. -/
def stripStart? (start s : String) : Option String :=
  (Chars.stripStart? start.toList s.toList).map String.ofList

end ParseAudit.Text
