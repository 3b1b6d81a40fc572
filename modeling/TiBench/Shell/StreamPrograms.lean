import TiBench.Shell.Operands

/-!
# Programs for streams

The programs that print, cut, change, order and count what they read.
-/

namespace TiBench.Shell

/-- The lines of a byte string, each with its end if it has one. -/
def byteLines (b : Bytes) : List Bytes :=
  let pieces := Pieces.splitOn (· == 0x0a) b
  let whole := pieces.dropLast.map (· ++ [0x0a])
  match pieces.getLast? with
  | some last => if last.isEmpty then whole else whole ++ [last]
  | none => whole

/-- The lines of a byte string without their ends. -/
def plainLines (b : Bytes) : List Bytes :=
  (byteLines b).map fun line => if line.getLast? = some 0x0a then line.dropLast else line

/-- Lines with their ends, as one byte string. -/
def joinLines (ls : List Bytes) : Bytes := ls.flatMap (· ++ [0x0a])

/-- The operands, or what is read where there are none. -/
def Usage.inputs (u : Usage) : List String := if u.operands.isEmpty then ["-"] else u.operands

/-- The work on what is read from a file. A file that cannot be read is complained about. -/
def Progress.reading (g : Progress) (p : Process) (path : String)
    (work : Progress → Bytes → Progress) : Progress :=
  match g.input p.cwd path with
  | .ok (data, g) => work g data
  | .error e => g.fault (shownName path ++ ": " ++ reason e)

/-- What a program leaves that makes one text out of all that it reads. -/
def filtering (p : Process) (files : FileTree) (inputs : List String) (f : Bytes → Bytes) :
    ProgramRun :=
  let r := workThrough p files 1 inputs fun g path =>
    g.reading p path fun g data => { g with out := g.out ++ data }
  { r with stdout := f r.stdout }

/-- How lines are printed. -/
structure LineStyle where
  numbers : Bool
  /-- Only lines that are not empty have numbers. -/
  skipsEmpty : Bool
  /-- Of empty lines in a row only one is printed. -/
  squeezes : Bool
  marksEnds : Bool
  marksTabs : Bool
  /-- Characters that cannot be seen are named. -/
  names : Bool

/-- The style that letters ask for. -/
def LineStyle.ofLetters (letters : List Char) : LineStyle where
  numbers := letters.any ['n', 'b'].contains
  skipsEmpty := letters.contains 'b'
  squeezes := letters.contains 's'
  marksEnds := letters.any ['E', 'e', 'A'].contains
  marksTabs := letters.any ['T', 't', 'A'].contains
  names := letters.any ['v', 'e', 't', 'A'].contains

/-- A byte of seven bits as it can be seen. -/
def shownByte7 (b : UInt8) : Bytes :=
  if b < 0x20 then [0x5e, b + 0x40] else if b = 0x7f then [0x5e, 0x3f] else [b]

/-- A byte of a line as it is printed. -/
def LineStyle.shownByte (st : LineStyle) (b : UInt8) : Bytes :=
  if b = 0x0a then (if st.marksEnds then [0x24] else []) ++ [b]
  else if b = 0x09 then if st.marksTabs then [0x5e, 0x49] else [b]
  else if !st.names then [b]
  else if 0x80 ≤ b then [0x4d, 0x2d] ++ shownByte7 (b - 0x80)
  else shownByte7 b

/-- Lines as they are printed, the next with a number, after one that was empty or not. -/
def LineStyle.shown (st : LineStyle) : (n : Nat) → (afterEmpty : Bool) → List Bytes → Bytes
  | _, _, [] => []
  | n, afterEmpty, line :: more =>
    let isEmpty := line = [0x0a]
    if st.squeezes ∧ afterEmpty ∧ isEmpty then st.shown n true more
    else
      let text := line.flatMap st.shownByte
      if !st.numbers ∨ (st.skipsEmpty ∧ isEmpty) then text ++ st.shown n isEmpty more
      else Text.utf8 (Text.padLeft 6 (toString n) ++ "\t") ++ text ++ st.shown (n + 1) isEmpty more

/-- The program that prints files one after the other, or what it reads. -/
def concatenate : Program :=
  withOptions ['A', 'b', 'e', 'E', 'n', 's', 't', 'T', 'u', 'v'] fun p files u =>
    if u.letters.all (· == 'u') then filtering p files u.inputs id
    else filtering p files u.inputs fun b =>
      (LineStyle.ofLetters u.letters).shown 1 false (byteLines b)

/-- How much of some items is meant: a number of them, perhaps after a sign. -/
structure Extent where
  sign? : Option Char
  size : Nat

/-- The extent that a text writes. -/
def Extent.ofText? (s : List Char) : Option Extent :=
  let (sign?, digits) := match s with
    | '+' :: digits => (some '+', digits)
    | '-' :: digits => (some '-', digits)
    | digits => (none, digits)
  if digits.isEmpty then none else (Text.digits? 10 digits).map (⟨sign?, ·⟩)

/-- The number of items before the end of a start: all but some after a minus sign. -/
def Extent.fromStart (e : Extent) (total : Nat) : Nat :=
  if e.sign? = some '-' then total - e.size else min e.size total

/-- The number of items before a rest: it starts with the item of a number after a plus sign. -/
def Extent.beforeEnd (e : Extent) (total : Nat) : Nat :=
  if e.sign? = some '+' then e.size - 1 else total - e.size

/-- What part of files is printed. -/
structure Part where
  ofBytes : Bool
  extent : Extent
  showsNames? : Option Bool

/-- The part that arguments ask for, and the operands, or what is wrong. -/
def Part.ofArgs (part : Part) : (args : List String) → Except String (Part × List String)
  | [] => .ok (part, [])
  | "--" :: args => .ok (part, args)
  | "-q" :: args => { part with showsNames? := some false }.ofArgs args
  | "-v" :: args => { part with showsNames? := some true }.ofArgs args
  | "-c" :: n :: args =>
    match Extent.ofText? n.toList with
    | some e => { part with ofBytes := true, extent := e }.ofArgs args
    | none => .error ("invalid number of bytes: '" ++ n ++ "'")
  | "-n" :: n :: args =>
    match Extent.ofText? n.toList with
    | some e => { part with ofBytes := false, extent := e }.ofArgs args
    | none => .error ("invalid number of lines: '" ++ n ++ "'")
  | arg :: args =>
    let take (ofBytes : Bool) (what : String) (n : List Char) :
        Except String (Part × List String) :=
      match Extent.ofText? n with
      | some e => { part with ofBytes := ofBytes, extent := e }.ofArgs args
      | none => .error ("invalid number of " ++ what ++ ": '" ++ String.ofList n ++ "'")
    match arg.toList with
    | '-' :: 'c' :: c :: n => take true "bytes" (c :: n)
    | '-' :: 'n' :: c :: n => take false "lines" (c :: n)
    | '-' :: c :: n =>
      if c.isDigit then take false "lines" (c :: n)
      else .error ("invalid option -- '" ++ c.toString ++ "'")
    | _ => (part.ofArgs args).map fun (part, operands) => (part, arg :: operands)

/-- The file that holds zero bytes without an end. -/
def endlessFile : String := "/dev/zero"

/-- The program that prints a part of files. It may leave bytes unread if these are what it
counts. -/
def partly (cut : (Nat → Nat) → (total : Nat) → Nat × Nat) (count : Extent → Nat → Nat)
    (leavesRest : Bool) : Program := fun p files =>
  match Part.ofArgs ⟨false, ⟨none, 10⟩, none⟩ p.args with
  | .error text => fails p files 1 text
  | .ok (part, operands) =>
    let paths := if operands.isEmpty then ["-"] else operands
    let showsNames := part.showsNames?.getD (1 < paths.length)
    workThrough p files 1 paths fun g path =>
      let input := if path = endlessFile then .ok (List.replicate part.extent.size 0, g)
        else g.input p.cwd path
      match input with
      | .error e => g.fault ("cannot open '" ++ path ++ "' for reading: " ++ reason e)
      | .ok (data, after) =>
        let name := if path = "-" then "standard input" else path
        let title := if showsNames then
            Text.utf8 ((if g.out.isEmpty then "" else "\n") ++ "==> " ++ name ++ " <==\n")
          else []
        let total := if part.ofBytes then data.length else (byteLines data).length
        let (start, size) := cut (count part.extent) total
        let text := if part.ofBytes then (data.drop start).take size
          else (((byteLines data).drop start).take size).flatten
        let rest := if leavesRest ∧ part.ofBytes ∧ path = "-" then data.drop (start + size)
          else after.stdin
        { after with stdin := rest, out := g.out ++ title ++ text }

/-- The program that prints the start of files, or of what it reads. -/
def head : Program := partly (fun count total => (0, count total)) Extent.fromStart true

/-- The program that prints the end of files, or of what it reads. -/
def tail : Program :=
  partly (fun count total => (count total, total - count total)) Extent.beforeEnd false

/-- The number of words in a byte string. -/
def wordCount (b : Bytes) : Nat :=
  ((Pieces.splitOn (fun c => c == 0x20 || (0x09 ≤ c && c ≤ 0x0d)) b).filter (!·.isEmpty)).length

/-- The numbers of lines, words, characters and bytes in a byte string that letters ask for. -/
def countsOf (letters : List Char) (b : Bytes) : List Nat :=
  let counts := [('l', b.count 0x0a), ('w', wordCount b), ('m', (Text.ofUtf8Lossy b).length),
    ('c', b.length)]
  (counts.filter fun (c, _) => letters.contains c).map Prod.snd

/-- The program that counts the lines, words and bytes of files, or of what it reads. Several
numbers from a stream have columns of seven characters. -/
def count : Program := withOptions ['l', 'w', 'm', 'c'] fun p files u =>
  let letters := if u.letters.isEmpty then ['l', 'w', 'c'] else u.letters
  let sizes := u.inputs.map fun path => ((files.read p.cwd path).toOption.getD []).length
  let width := if letters.eraseDups.length = 1 ∧ u.inputs.length = 1 then 0
    else if u.inputs.contains "-" then 7
    else (toString (sizes.foldl (· + ·) 0)).length
  let line (counts : List Nat) (name? : Option String) : Bytes :=
    let columns := counts.map fun n => Text.padLeft width (toString n)
    Text.utf8 (" ".intercalate (columns ++ name?.toList) ++ "\n")
  let (g, totals) := u.inputs.foldl (fun (g, totals) path =>
    match g.input p.cwd path with
    | .error e => (g.fault (shownName path ++ ": " ++ reason e), totals)
    | .ok (data, g) =>
      let counts := countsOf letters data
      let name? := if u.operands.isEmpty then none else some path
      ({ g with out := g.out ++ line counts name? }, totals.zipWith (· + ·) counts))
    ((⟨files, p.stdin, [], []⟩, countsOf letters []) : Progress × List Nat)
  let g := if u.inputs.length ≤ 1 then g
    else { g with out := g.out ++ line totals (some "total") }
  g.finish p 1

/-- The program that prints what it reads and also writes it to files. -/
def tee : Program := withOptions ['a', 'i'] fun p files u =>
  let g := u.operands.foldl (fun (g : Progress) path =>
    let old := if u.letters.contains 'a' then (g.files.read p.cwd path).toOption.getD [] else []
    g.change ((g.files.write p.cwd path (old ++ p.stdin)).mapError fun e =>
      shownName path ++ ": " ++ reason e)) ⟨files, [], p.stdin, []⟩
  g.finish p 1

/-- The bytes from one to another. -/
def byteRange (a b : Nat) : Bytes := (List.range' a (b + 1 - a)).map UInt8.ofNat

/-- The bytes of a class of characters. -/
def byteClass : String → Bytes
  | "lower" => byteRange 0x61 0x7a
  | "upper" => byteRange 0x41 0x5a
  | "alpha" => byteRange 0x41 0x5a ++ byteRange 0x61 0x7a
  | "digit" => byteRange 0x30 0x39
  | "alnum" => byteRange 0x30 0x39 ++ byteRange 0x41 0x5a ++ byteRange 0x61 0x7a
  | "space" => byteRange 0x09 0x0d ++ [0x20]
  | "blank" => [0x09, 0x20]
  | "cntrl" => byteRange 0x00 0x1f ++ [0x7f]
  | "print" => byteRange 0x20 0x7e
  | "graph" => byteRange 0x21 0x7e
  | "punct" =>
    byteRange 0x21 0x2f ++ byteRange 0x3a 0x40 ++ byteRange 0x5b 0x60 ++ byteRange 0x7b 0x7e
  | "xdigit" => byteRange 0x30 0x39 ++ byteRange 0x41 0x46 ++ byteRange 0x61 0x66
  | _ => []

/-- The bytes that a set of characters names: single ones, ranges and classes. -/
def byteSet : (fuel : Nat) → Bytes → Bytes
  | fuel + 1, 0x5b :: 0x3a :: rest =>
    match Pieces.splitOnce (· == 0x3a) rest with
    | some (name, 0x5d :: rest) =>
      byteClass (String.ofList (Text.ofUtf8Lossy name)) ++ byteSet fuel rest
    | _ => 0x5b :: byteSet fuel (0x3a :: rest)
  | fuel + 1, a :: 0x2d :: b :: rest => byteRange a.toNat b.toNat ++ byteSet fuel rest
  | fuel + 1, a :: rest => a :: byteSet fuel rest
  | _, _ => []

/-- The bytes that a text with escape sequences names. -/
def setOf (text : String) : Bytes :=
  let b := (unescape text.toList).1
  byteSet b.length b

/-- Of bytes in a set that stand in a row and are alike, only one is left. -/
def squeeze (set : Bytes) : Bytes → Bytes
  | a :: b :: rest =>
    if a = b ∧ set.contains a then squeeze set (b :: rest) else a :: squeeze set (b :: rest)
  | rest => rest

/-- The program that replaces, deletes or squeezes characters of what it reads. -/
def translate : Program := withOptions ['c', 'C', 'd', 's', 't'] fun p files u =>
  let chosen (text : String) : Bytes :=
    let set := setOf text
    if u.letters.any ['c', 'C'].contains then (byteRange 0 255).filter (!set.contains ·) else set
  let drops := u.letters.contains 'd'
  let squeezes := u.letters.contains 's'
  match u.operands with
  | [] => misused p files "missing operand"
  | [old] =>
    if drops then filtering p files ["-"] fun b => b.filter fun c => !(chosen old).contains c
    else if squeezes then filtering p files ["-"] (squeeze (chosen old))
    else misused p files
      ("missing operand after '" ++ old ++ "'\nTwo strings must be given when translating.")
  | [old, new] =>
    let targets := setOf new
    let replaced (b : Bytes) : Bytes := b.map fun c => match (chosen old).idxOf? c with
      | some i => targets.getD i (targets.getLast?.getD c)
      | none => c
    filtering p files ["-"] fun b =>
      let b := if drops then b.filter fun c => !(chosen old).contains c else replaced b
      if squeezes then squeeze targets b else b
  | _ :: _ :: extra :: _ => misused p files ("extra operand '" ++ extra ++ "'")

/-- The order of byte strings, byte by byte. -/
def bytesLe : Bytes → Bytes → Bool
  | [], _ => true
  | _ :: _, [] => false
  | a :: as, b :: bs => a < b || (a == b && bytesLe as bs)

/-- The number at the start of a line. -/
def leadingNumber (line : Bytes) : Int :=
  match (Text.ofUtf8Lossy line).dropWhile Text.isBlank with
  | '-' :: digits => -((Text.digits? 10 (digits.takeWhile Char.isDigit)).getD 0 : Nat)
  | digits => (Text.digits? 10 (digits.takeWhile Char.isDigit)).getD 0

/-- The program that prints lines in order. -/
def sortLines : Program := withOptions ['n', 'r', 'u', 's', 'b', 'd', 'f', 'i'] fun p files u =>
  let le (a b : Bytes) : Bool :=
    if u.letters.contains 'n' ∧ leadingNumber a ≠ leadingNumber b then
      leadingNumber a < leadingNumber b
    else bytesLe a b
  filtering p files u.inputs fun b =>
    let ls := (plainLines b).mergeSort le
    let ls := if u.letters.contains 'u' then ls.eraseReps else ls
    joinLines (if u.letters.contains 'r' then ls.reverse else ls)

/-- The program that prints one of lines in a row that are alike. -/
def distinctLines : Program := withOptions ['c', 'd', 'u'] fun p files u =>
  filtering p files (u.inputs.take 1) fun b =>
    let groups := (plainLines b).splitBy (· == ·)
    let groups := groups.filter fun g =>
      (!u.letters.contains 'd' || 1 < g.length) && (!u.letters.contains 'u' || g.length = 1)
    joinLines (groups.map fun g =>
      let count := Text.utf8 (Text.padLeft 7 (toString g.length) ++ " ")
      (if u.letters.contains 'c' then count else []) ++ g.headD [])

/-- The program that prints lines backwards. -/
def reverseLines : Program := withOptions [] fun p files u =>
  filtering p files u.inputs fun b =>
    (byteLines b).flatMap fun line =>
      let text := (Text.ofUtf8Lossy line).filter (· != '\n')
      Text.utf8 (String.ofList text.reverse) ++ if line.getLast? = some 0x0a then [0x0a] else []

/-- The program that prints the last line first. -/
def lastLinesFirst : Program := withOptions [] fun p files u =>
  filtering p files u.inputs fun b => (byteLines b).reverse.flatten

/-- The program that prints consecutive numbers. -/
def numbers : Program := fun p files =>
  let shown (first step last : Int) : ProgramRun :=
    let size := if step = 0 then 0 else ((last - first) / step + 1).toNat
    let ns := (List.range size).map fun (i : Nat) => first + step * (i : Int)
    prints p files 0 (Text.utf8 (String.join (ns.map fun n => toString n ++ "\n"))) []
  match p.args.find? fun arg => arg.toInt?.isNone with
  | some arg => misused p files ("invalid floating point argument: '" ++ arg ++ "'")
  | none =>
    match p.args.filterMap String.toInt? with
    | [] => misused p files "missing operand"
    | [last] => shown 1 1 last
    | [first, last] => shown first 1 last
    | [first, step, last] => shown first step last
    | _ => misused p files ("extra operand '" ++ (p.args.drop 3).headD "" ++ "'")

/-- The number of lines of a program that prints without an end: more than are read of them. -/
def manyLines : Nat := 100000

/-- The program that prints the same line as long as something reads it. -/
def sameLine : Program := fun p files =>
  let line := Text.utf8 ((if p.args.isEmpty then "y" else " ".intercalate p.args) ++ "\n")
  prints p files 0 (List.replicate manyLines line).flatten []

/-- The program that prints the last name of a path, perhaps without an ending. -/
def lastName : Program := fun p files =>
  match p.args with
  | [] => misused p files "missing operand"
  | _ :: _ :: extra :: _ => misused p files ("extra operand '" ++ extra ++ "'")
  | path :: more =>
    let rootName := if path.isEmpty then "" else "/"
    let name := ((FileTree.names path).getLast?.getD rootName).toList
    let ending := (more.headD "").toList
    let kept := if ending.isSuffixOf name ∧ ending.length < name.length then
        name.take (name.length - ending.length)
      else name
    prints p files 0 (Text.utf8 (String.ofList kept ++ "\n")) []

/-- The program that prints paths without their last names. -/
def parentName : Program := fun p files =>
  if p.args.isEmpty then misused p files "missing operand"
  else
    let shown (path : String) : String :=
      let isAbsolute := path.toList.head? = some '/'
      let text := "/".intercalate (FileTree.names path).dropLast
      if isAbsolute then "/" ++ text else if text.isEmpty then "." else text
    prints p files 0 (Text.utf8 (String.join (p.args.map fun path => shown path ++ "\n"))) []

/-- The program that prints variables of its environment. -/
def printVariables : Program := fun p files =>
  let lines := if p.args.isEmpty then p.env.map fun (name, value) => name ++ "=" ++ value
    else p.args.filterMap fun name => List.lookup name p.env
  let code := if p.args.all fun name => (List.lookup name p.env).isSome then 0 else 1
  prints p files code (Text.utf8 (String.join (lines.map (· ++ "\n")))) []

end TiBench.Shell
