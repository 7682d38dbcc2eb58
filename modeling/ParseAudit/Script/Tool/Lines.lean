import ParseAudit.Script.Tool.Basic
/-!
# Tools for lines

Tools that select, count, order and change the lines and characters of texts.
-/

namespace ParseAudit.Script.Tool

/-! ## Starts and ends -/

/-- A number of lines or characters, with a sign in front. -/
structure Amount where
  sign : Option Char
  size : Nat

/-- Reads an amount. -/
def amount? (s : List Char) : Option Amount :=
  let (sign, digits) := match s with
    | '+' :: digits => (some '+', digits)
    | '-' :: digits => (some '-', digits)
    | digits => (none, digits)
  if digits.all Char.isDigit then (Chars.natural? digits).map (⟨sign, ·⟩) else none

/-- Turns an amount that stands for an option into that option. -/
def withAmounts (signs : List Char) (args : List (List Char)) : List (List Char) :=
  match args with
  | (sign :: digits) :: rest =>
    if signs.contains sign && !digits.isEmpty && digits.all Char.isDigit then
      ['-', 'n'] :: (if sign == '+' then sign :: digits else digits) :: rest
    else args
  | _ => args

/-- The pieces of a text that amounts count: its characters, or its lines with their ends. -/
def countedPieces (byCharacters : Bool) (text : List Char) : List (List Char) :=
  if byCharacters then text.map ([·])
  else
    let pieces := text.splitOnP (· == '\n')
    let whole := pieces.dropLast.map (· ++ ['\n'])
    match pieces.getLast? with
    | some [] | none => whole
    | some piece => whole ++ [piece]

/-- Shows a part of each input, with titles if there are several. -/
def showParts (name : String) (a : Arguments)
    (select : Amount → List (List Char) → List (List Char)) : Exec Unit := do
  let byCharacters := a.has 'c'
  let value := (a.value? (if byCharacters then 'c' else 'n')).getD ['1', '0']
  match amount? value with
  | none =>
    let unit := if byCharacters then "bytes" else "lines"
    complain name (ofText ("invalid number of " ++ unit ++ ": ") ++ inQuotes value) 1
  | some amount =>
    let titled := (a.inputs.length > 1 || a.has 'v') && !a.has 'q'
    let refuse := fun (path : List Char) (e : FileError) => match e with
      | .isADirectory => ofText "error reading " ++ inQuotes path ++ reason e
      | e => ofText "cannot open " ++ inQuotes path ++ ofText " for reading" ++ reason e
    let mut space := []
    for path in a.inputs do
      let found ← contentOf path
      if let .error e := found then complain name (refuse path e) 1
      -- A directory can be opened, and so it has a title.
      let shown := match found with
        | .ok content => some content
        | .error .isADirectory => some []
        | .error _ => none
      if let some content := shown then
        if titled then
          let title := if path == ['-'] then ofText "standard input" else path
          Exec.print (space ++ ofText "==> " ++ title ++ ofText " <==\n")
          space := ['\n']
        Exec.print (select amount (countedPieces byCharacters content)).flatten

/-- Shows the starts of texts. -/
def head : Tool := fun args =>
  make "head" "qv" "nc" 1 (showParts "head" · fun amount pieces =>
    pieces.take (if amount.sign == some '-' then pieces.length - amount.size else amount.size))
    (withAmounts ['-'] args)

/-- Shows the ends of texts. -/
def tail : Tool := fun args =>
  make "tail" "qvf" "nc" 1 (showParts "tail" · fun amount pieces =>
    pieces.drop (if amount.sign == some '+' then amount.size - 1
      else pieces.length - amount.size))
    (withAmounts ['-', '+'] args)

/-! ## Counting -/

/-- How many words a text has. -/
def wordCount (text : List Char) : Nat :=
  ((text.splitOnP fun c => c == ' ' || ('\t' ≤ c && c ≤ '\r')).filter (!·.isEmpty)).length

/-- The counts of a text that are asked for. -/
def countsOf (a : Arguments) (text : List Char) : List Nat :=
  let all := !(a.has 'l' || a.has 'w' || a.has 'c' || a.has 'm')
  (if all || a.has 'l' then [text.count '\n'] else [])
    ++ (if all || a.has 'w' then [wordCount text] else [])
    ++ (if all || a.has 'c' || a.has 'm' then [text.length] else [])

/-- Shows how many lines, words and characters texts have. -/
def wc : Tool := make "wc" "lwcm" "" 1 fun a => do
  let mut rows := []
  let mut size := 0
  let mut isSizeKnown := !a.inputs.contains ['-']
  for path in a.inputs do
    let title := if a.operands.isEmpty then [] else ' ' :: path
    match ← contentOf path with
    | .ok content =>
      rows := rows ++ [(countsOf a content, title)]
      size := size + content.length
    | .error e =>
      complain "wc" (plainly path e) 1
      if e == .isADirectory then
        rows := rows ++ [(countsOf a [], title)]
        isSizeKnown := false
  if a.inputs.length > 1 then
    let sums := rows.foldl (fun sums (counts, _) => List.zipWith (· + ·) sums counts)
      (countsOf a [])
    rows := rows ++ [(sums, ofText " total")]
  -- The columns are as wide as the number of all characters, or wider where that is not known.
  let isSingle := (countsOf a []).length = 1 && a.inputs.length = 1
  let width := if isSingle then 1
    else max (if isSizeKnown then 1 else 7) (naturalChars size).length
  for (counts, title) in rows do
    Exec.printLine ([' '].intercalate (counts.map (padded width)) ++ title)

/-! ## Ordering -/

/-- The number at the start of a line, which orders it. -/
def leadingNumber (line : List Char) : Int := ((readInteger true line).map Prod.fst).getD 0

/-- Orders lines. -/
def sort : Tool := make "sort" "rnufbs" "o" 2 fun a => do
  let refuse := fun (path : List Char) (e : FileError) => match e with
    | .isADirectory => ofText "read failed: " ++ path ++ reason e
    | e => ofText "cannot read: " ++ path ++ reason e
  let lines ← allLines "sort" 2 refuse a.inputs
  let fold := fun (line : List Char) => if a.has 'f' then line.map Char.toUpper else line
  let isBelow := fun (x y : List Char) =>
    if a.has 'n' then decide (leadingNumber x < leadingNumber y) else decide (fold x < fold y)
  let isBefore := fun (x y : List Char) => if a.has 'r' then isBelow y x else isBelow x y
  let isTied := fun (x y : List Char) => !isBelow x y && !isBelow y x
  let lines := lines.mergeSort fun x y =>
    if isTied x y then a.has 'u' || (if a.has 'r' then !decide (x < y) else !decide (y < x))
    else isBefore x y
  let lines := if a.has 'u' then (lines.splitBy isTied).filterMap List.head? else lines
  match a.value? 'o' with
  | none => Exec.print (joinLines lines)
  | some path =>
    match (← get).openFile path .overwrite with
    | .ok (channel, sh) => set (sh.write channel (joinLines lines))
    | .error e => complain "sort" (ofText "open failed: " ++ path ++ reason e) 2

/-- Joins equal lines that stand side by side. -/
def uniq : Tool := make "uniq" "cdui" "" 1 fun a => do
  match ← contentOf (a.operands.headD ['-']) with
  | .error e => complain "uniq" (plainly (a.operands.headD []) e) 1
  | .ok content =>
    let fold := fun (line : List Char) => if a.has 'i' then line.map Char.toLower else line
    for run in (linesOf content).splitBy fun x y => fold x == fold y do
      let isRepeated := run.length > 1
      if !(a.has 'd' && !isRepeated) && !(a.has 'u' && isRepeated) then
        let count := if a.has 'c' then padded 7 run.length ++ [' '] else []
        Exec.printLine (count ++ run.headD [])

/-- Turns the order of lines round. -/
def tac : Tool := make "tac" "" "" 1 fun a => do
  let refuse := fun (path : List Char) (e : FileError) =>
    ofText "failed to open " ++ inQuotes path ++ ofText " for reading" ++ reason e
  forInputs "tac" 1 refuse a.inputs fun _ content =>
    Exec.print (countedPieces false content).reverse.flatten

/-- Turns the order of the characters of each line round. -/
def rev : Tool := make "rev" "" "" 1 fun a =>
  forInputs "rev" 1 (fun path e => ofText "cannot open " ++ path ++ reason e) a.inputs
    fun _ content =>
      Exec.print (['\n'].intercalate ((content.splitOnP (· == '\n')).map List.reverse))

/-! ## Characters -/

/-- Reads the members of a set of characters: single ones, ranges and classes with a name.  The
fuel bounds their number. -/
def setMembers : Nat → List Char → List Char
  | 0, _ => []
  | _ + 1, [] => []
  | fuel + 1, '[' :: ':' :: rest =>
    match Pattern.className? (rest.map (·, false)) with
    | some (name, behind) =>
      ((List.range 256).map Char.ofNat).filter (Pattern.inNamedClass name)
        ++ setMembers fuel behind.chars
    | none => '[' :: setMembers fuel (':' :: rest)
  | fuel + 1, s =>
    let (first, rest) := single s
    match rest with
    | '-' :: e :: behind =>
      let (last, behind) := single (e :: behind)
      (List.range (last.toNat + 1 - first.toNat)).map (fun n => Char.ofNat (first.toNat + n))
        ++ setMembers fuel behind
    | rest => first :: setMembers fuel rest
where
  /-- Reads a single character, which may be escaped. -/
  single : List Char → Char × List Char
    | '\\' :: c :: rest =>
      match Format.escape c rest with
      | ([e], behind) => (e, behind)
      | _ => (c, rest)
    | c :: rest => (c, rest)
    | [] => ('\x00', [])

/-- Replaces, deletes or squeezes characters. -/
def tr : Tool := make "tr" "cCdst" "" 1 fun a => do
  match a.operands with
  | [] => missingOperand "tr"
  | first :: others =>
    let members := fun (s : List Char) => setMembers (s.length + 1) s
    let given := members first
    let complement := a.has 'c' || a.has 'C'
    let isMember := fun (c : Char) => given.contains c != complement
    let second := (others.head?.map members).getD []
    if others.isEmpty && !a.has 'd' && !a.has 's' then
      complain "tr" (ofText "missing operand after " ++ inQuotes first) 1
      Exec.remark (ofText "Two strings must be given when translating.")
      hint "tr"
    else
      let text ← Exec.readAll
      let kept := if a.has 'd' then text.filter (!isMember ·) else text
      let isTranslating := !a.has 'd' && !others.isEmpty
      let translated := if !isTranslating then kept else kept.map fun c =>
        if !isMember c then c
        else if complement then second.getLastD c
        -- The last character of the second set stands for all that are missing.
        else second[given.idxOf c]?.getD (second.getLastD c)
      let isSqueezed := fun (c : Char) =>
        a.has 's' && if others.isEmpty then isMember c else second.contains c
      let runs := translated.splitBy fun x y => x == y && isSqueezed x
      Exec.print (runs.flatMap fun run => if run.head?.any isSqueezed then run.take 1 else run)

/-! ## Parts of lines -/

/-- The positions that a list of ranges selects. -/
def ranges? (s : List Char) : Option (List (Nat × Option Nat)) :=
  (s.splitOnP (· == ',')).mapM fun part =>
    match part.splitOnP (· == '-') with
    | [n] => (Chars.natural? n).map fun n => (n, some n)
    | [m, n] =>
      let low := if m.isEmpty then some 1 else Chars.natural? m
      let high := if n.isEmpty then some none else (Chars.natural? n).map some
      match low, high with
      | some low, some high => some (low, high)
      | _, _ => none
    | _ => none

/-- The members of a list at the selected positions, which are counted from one. -/
def selected {α : Type} (ranges : List (Nat × Option Nat)) (members : List α) : List α :=
  (members.zipIdx 1).filterMap fun (x, n) =>
    if ranges.any fun (low, high) => low ≤ n && high.all (n ≤ ·) then some x else none

/-- Shows parts of lines. -/
def cut : Tool := make "cut" "sn" "dfcb" 1 fun a => do
  let separator := (a.value? 'd').getD ['\t']
  match a.value? 'f' <|> a.value? 'c' <|> a.value? 'b' with
  | none => misuse "cut" (ofText "you must specify a list of bytes, characters, or fields") 1
  | some list =>
    match ranges? list, separator with
    | none, _ => misuse "cut" (ofText "invalid field value " ++ inQuotes list) 1
    | some ranges, [d] =>
      if ranges.any (·.1 == 0) then misuse "cut" (ofText "fields are numbered from 1") 1
      else forInputs "cut" 1 plainly a.inputs fun _ content => do
        for line in linesOf content do
          if !a.has 'f' then Exec.printLine (selected ranges line)
          else
            let fields := line.splitOnP (· == d)
            if fields.length > 1 then Exec.printLine ([d].intercalate (selected ranges fields))
            else if !a.has 's' then Exec.printLine line
    | _, _ => misuse "cut" (ofText "the delimiter must be a single character") 1

/-! ## Numbers -/

/-- The numbers from a first one on in steps, as many as do not pass a last one.  The fuel bounds
how many there are. -/
def steps (step last : Int) : Nat → Int → List Int
  | 0, _ => []
  | fuel + 1, n =>
    if (step > 0 && n > last) || (step < 0 && n < last) then []
    else n :: steps step last fuel (n + step)

/-- Shows the numbers of a range. -/
def seq : Tool := fun args => do
  -- A negative number is no option.
  let isNumber := fun (arg : List Char) => (readInteger true arg).isSome
  let args := match args.findIdx? isNumber with
    | some n => args.take n ++ ['-', '-'] :: args.drop n
    | none => args
  make "seq" "w" "sf" 1 (fun a => do
    match a.operands.find? (!isNumber ·) with
    | some arg => misuse "seq" (ofText "invalid floating point argument: " ++ inQuotes arg) 1
    | none =>
      let numbers := a.operands.filterMap integer?
      let bounds := match numbers with
        | [last] => some (1, 1, last)
        | [first, last] => some (first, 1, last)
        | [first, step, last] => some (first, step, last)
        | _ => none
      match bounds with
      | none =>
        match a.operands.drop 3 with
        | extra :: _ => misuse "seq" (ofText "extra operand " ++ inQuotes extra) 1
        | [] => missingOperand "seq"
      | some (first, step, last) =>
        if step = 0 then misuse "seq" (ofText "invalid Zero increment value: '0'") 1
        else
          let texts := (steps step last ((last - first).natAbs + 1) first).map integerChars
          let width := (max (integerChars first).length (integerChars last).length)
          let texts := if a.has 'w' then texts.map fun text =>
              List.replicate (width - text.length) '0' ++ text
            else texts
          let separator := (a.value? 's').getD ['\n']
          if !texts.isEmpty then Exec.printLine (separator.intercalate texts)) args

end ParseAudit.Script.Tool
