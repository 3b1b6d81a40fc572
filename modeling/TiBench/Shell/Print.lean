import TiBench.Text.Blank
import TiBench.Text.Number
import TiBench.Tool.Program

/-!
# Printing programs

The programs that print their arguments, and the escape sequences that they know: a letter or up to
three octal digits after a backslash.
-/

namespace TiBench.Shell

/-- The byte of a backslash. -/
def backslash : UInt8 := 0x5c

/-- The byte that a letter after a backslash stands for. -/
def letterByte? : Char → Option UInt8
  | '\\' => some backslash
  | 'a' => some 0x07
  | 'b' => some 0x08
  | 't' => some 0x09
  | 'n' => some 0x0a
  | 'v' => some 0x0b
  | 'f' => some 0x0c
  | 'r' => some 0x0d
  | _ => none

/-- The number that at most `n` octal digits write after those of `value`, and what follows them. -/
def octal : (n : Nat) → (value : Nat) → List Char → Nat × List Char
  | n + 1, value, c :: rest =>
    match Text.digit? 8 c with
    | some d => octal n (value * 8 + d) rest
    | none => (value, c :: rest)
  | _, value, s => (value, s)

theorem length_octal_le (n value : Nat) (s : List Char) :
    (octal n value s).2.length ≤ s.length := by
  fun_induction octal n value s with
  | case1 _ _ _ _ _ _ ih => exact Nat.le_succ_of_le ih
  | case2 => exact Nat.le_refl _
  | case3 => exact Nat.le_refl _

/-- The bytes that stand for a backslash and what follows it, and what follows the sequence. A
backslash that starts no sequence stands for itself. -/
def escape (s : List Char) : Bytes × List Char :=
  match s with
  | [] => ([backslash], [])
  | c :: rest =>
    match letterByte? c, Text.digit? 8 c with
    | some b, _ => ([b], rest)
    | none, some _ =>
      let (value, rest) := octal 3 0 s
      ([UInt8.ofNat value], rest)
    | none, none => ([backslash], s)

theorem length_escape_le (s : List Char) : (escape s).2.length ≤ s.length := by
  unfold escape
  split
  · exact Nat.le_refl _
  · split
    · exact Nat.le_succ _
    · exact length_octal_le 3 0 _
    · exact Nat.le_refl _

/-- A text without a zero before an octal digit at its start. -/
def dropZero (s : List Char) : List Char :=
  match s with
  | '0' :: c :: rest => if (Text.digit? 8 c).isSome then c :: rest else s
  | _ => s

theorem length_dropZero_le (s : List Char) : (dropZero s).length ≤ s.length := by
  unfold dropZero
  split
  · split
    · exact Nat.le_succ _
    · exact Nat.le_refl _
  · exact Nat.le_refl _

/-- The bytes that a text with escape sequences stands for, and whether `\c` in it ends all
output. -/
def unescape : List Char → Bytes × Bool
  | [] => ([], false)
  | '\\' :: 'c' :: _ => ([], true)
  | '\\' :: s =>
    have : (escape (dropZero s)).2.length ≤ s.length :=
      Nat.le_trans (length_escape_le _) (length_dropZero_le s)
    let (more, ends) := unescape (escape (dropZero s)).2
    ((escape (dropZero s)).1 ++ more, ends)
  | c :: s =>
    let (more, ends) := unescape s
    (String.utf8EncodeChar c ++ more, ends)
termination_by s => s.length

/-- What a process leaves that reads nothing. -/
def prints (p : Process) (files : FileTree) (code : Nat) (out err : Bytes) : ProgramRun :=
  ⟨.exited code, out, err, files, p.stdin⟩

/-- What a process leaves that says on its error stream why it fails. -/
def fails (p : Process) (files : FileTree) (code : Nat) (text : String) : ProgramRun :=
  prints p files code [] (Text.utf8 (p.name ++ ": " ++ text ++ "\n"))

/-- The command of the shell that prints its arguments in a line. -/
def echo : Program := fun p files =>
  let (args, lineEnd) : List String × Bytes := match p.args with
    | "-n" :: args => (args, [])
    | args => (args, [0x0a])
  let (text, ends) := unescape (" ".intercalate args).toList
  prints p files 0 (text ++ if ends then [] else lineEnd) []

/-- Whether an argument holds only letters of the options of `plainEcho`. -/
def isEchoOption (arg : String) : Bool :=
  match arg.toList with
  | '-' :: c :: letters => (c :: letters).all fun c => c ∈ ['n', 'e', 'E']
  | _ => false

/-- The program that prints its arguments in a line. It knows escape sequences only if an option
asks for them. -/
def plainEcho : Program := fun p files =>
  let letters := (p.args.takeWhile isEchoOption).flatMap String.toList
  let args := p.args.dropWhile isEchoOption
  let text := " ".intercalate args
  let escapes := (letters.reverse.find? fun c => c == 'e' || c == 'E') == some 'e'
  let (out, ends) := if escapes then unescape text.toList else (Text.utf8 text, false)
  prints p files 0 (out ++ if ends || letters.contains 'n' then [] else [0x0a]) []

/-- How an argument is printed. -/
structure FieldStyle where
  flags : List Char
  width : Nat
  precision? : Option Nat
  letter : Char

/-- Bytes in a field of a width. -/
def FieldStyle.pad (st : FieldStyle) (b : Bytes) : Bytes :=
  let blanks := List.replicate (st.width - b.length) 0x20
  if '-' ∈ st.flags then b ++ blanks else blanks ++ b

/-- A number in a field: a sign, and digits filled up with zeros. -/
def FieldStyle.number (st : FieldStyle) (sign digits : String) : Bytes :=
  let sign := if sign.isEmpty ∧ '+' ∈ st.flags then "+"
    else if sign.isEmpty ∧ ' ' ∈ st.flags then " "
    else sign
  let fill := '0' ∈ st.flags ∧ '-' ∉ st.flags ∧ st.precision?.isNone
  let least := if fill then st.width - sign.length else st.precision?.getD 1
  let zeros := String.ofList (List.replicate (least - digits.length) '0')
  st.pad (Text.utf8 (sign ++ zeros ++ digits))

/-- The number that an argument writes, and what is wrong with it. After a quote, it is the number
of a character. -/
def argumentNumber (arg : String) : Int × Option String :=
  match arg.toList with
  | '\x27' :: c :: _ | '"' :: c :: _ => (c.toNat, none)
  | s =>
    let (isNegative, body) : Bool × List Char := match s.dropWhile Text.isBlank with
      | '-' :: body => (true, body)
      | '+' :: body => (false, body)
      | body => (false, body)
    let (base, body) : Nat × List Char := match body with
      | '0' :: 'x' :: body | '0' :: 'X' :: body => (16, body)
      | '0' :: body => (8, '0' :: body)
      | _ => (10, body)
    let digits := body.takeWhile fun c => (Text.digit? base c).isSome
    let n : Int := (Text.digits? base digits).getD 0
    let fault? := if arg.isEmpty then none
      else if digits.isEmpty then some (arg ++ ": expected numeric value")
      else if digits.length < body.length then some (arg ++ ": not completely converted")
      else none
    (if isNegative then -n else n, fault?)

/-- A number in a style: digits, or a star in place of the next argument. After it come the
arguments that are left, and what follows the number. -/
def spanCount (args : List String) (s : List Char) : Int × List String × List Char :=
  match s with
  | '*' :: s => ((argumentNumber (args.headD "0")).1, args.tail, s)
  | _ =>
    let digits := s.takeWhile Char.isDigit
    ((Text.digits? 10 digits).getD 0, args, s.drop digits.length)

/-- The style after a percent sign, the arguments that it leaves, and what follows it. -/
def fieldStyle? (args : List String) (s : List Char) :
    Option (FieldStyle × List String × List Char) :=
  let flags := s.takeWhile fun c => c ∈ ['-', '+', ' ', '0', '#']
  let (width, args, s) := spanCount args (s.drop flags.length)
  let (precision?, args, s) : Option Int × List String × List Char := match s with
    | '.' :: s =>
      let (precision, args, s) := spanCount args s
      (some precision, args, s)
    | _ => (none, args, s)
  match s with
  | letter :: rest =>
    let flags := if width < 0 then '-' :: flags else flags
    let precision? := (precision?.filter (0 ≤ ·)).map Int.toNat
    some (⟨flags, width.natAbs, precision?, letter⟩, args, rest)
  | [] => none

/-- A number in a base. A negative one is what its 64 bits are without a sign. -/
def baseDigits (base : Nat) (n : Int) : String :=
  String.ofList (Nat.toDigits base (n % Text.bound64).toNat)

/-- What an argument is printed as, what is wrong with it, and whether it ends all output. -/
def FieldStyle.field? (st : FieldStyle) (arg : String) : Option (Bytes × Option String × Bool) :=
  let (n, fault?) := argumentNumber arg
  let cut (b : Bytes) : Bytes := st.precision?.elim b (b.take ·)
  match st.letter with
  | 's' => some (st.pad (cut (Text.utf8 arg)), none, false)
  | 'b' =>
    let (b, ends) := unescape arg.toList
    some (st.pad (cut b), none, ends)
  | 'c' => some (st.pad ((Text.utf8 arg ++ [0]).take 1), none, false)
  | 'd' | 'i' => some (st.number (if n < 0 then "-" else "") (toString n.natAbs), fault?, false)
  | 'u' => some ({ st with flags := st.flags.filter (· ∉ ['+', ' ']) }.number ""
      (baseDigits 10 n), fault?, false)
  | 'o' => some (st.number (if '#' ∈ st.flags then "0" else "") (baseDigits 8 n), fault?, false)
  | 'x' => some (st.number (if '#' ∈ st.flags then "0x" else "") (baseDigits 16 n), fault?, false)
  | 'X' => some (st.number (if '#' ∈ st.flags then "0X" else "")
      (String.ofList ((baseDigits 16 n).toList.map Char.toUpper)), fault?, false)
  | _ => none

/-- What printing by a format has come to. -/
structure Printing where
  /-- What has been printed, part by part, the last part first. -/
  out : List Bytes
  faults : List String
  args : List String
  /-- The pass has printed arguments. -/
  hasTaken : Bool
  /-- An argument or the format has ended all output. -/
  ended : Bool
  /-- The format itself is wrong. -/
  isBadFormat : Bool

namespace Printing

/-- Before anything is printed. -/
def start (args : List String) : Printing := ⟨[], [], args, false, false, false⟩

/-- One more part printed. -/
def print (pr : Printing) (b : Bytes) : Printing := { pr with out := b :: pr.out }

/-- The format turns out to be wrong. -/
def badFormat (pr : Printing) (text : String) : Printing :=
  { pr with faults := pr.faults ++ [text], ended := true, isBadFormat := true }

/-- One pass over a format of at most `fuel` characters. -/
def pass (pr : Printing) : (fuel : Nat) → List Char → Printing
  | 0, _ | _, [] => pr
  | fuel + 1, '\\' :: s =>
    let (b, s) := escape s
    (pr.print b).pass fuel s
  | fuel + 1, '%' :: '%' :: s => (pr.print [0x25]).pass fuel s
  | fuel + 1, '%' :: s =>
    match fieldStyle? pr.args s with
    | none => pr.badFormat "missing format character"
    | some (st, args, s) =>
      match st.field? (args.headD (if st.letter ∈ ['s', 'b', 'c'] then "" else "0")) with
      | none => pr.badFormat ("%" ++ st.letter.toString ++ ": invalid directive")
      | some (b, fault?, ends) =>
        let pr := { pr.print b with
          faults := pr.faults ++ fault?.toList, args := args.tail, hasTaken := true, ended := ends }
        if ends then pr else pr.pass fuel s
  | fuel + 1, c :: s => (pr.print (String.utf8EncodeChar c)).pass fuel s

/-- The format used again until all arguments are printed, at most `fuel` times. -/
def run (fmt : List Char) : (fuel : Nat) → Printing → Printing
  | 0, pr => pr
  | fuel + 1, pr =>
    let after := { pr with hasTaken := false }.pass fmt.length fmt
    if after.ended ∨ after.args.isEmpty ∨ !after.hasTaken then after else run fmt fuel after

end Printing

/-- The program that prints its arguments by a format. -/
def printFormat : Program := fun p files =>
  let args := match p.args with
    | "--" :: args => args
    | args => args
  match args with
  | [] => fails p files 2 "usage: printf format [arg ...]"
  | fmt :: args =>
    let pr := (Printing.start args).run fmt.toList (args.length + 1)
    let err := pr.faults.flatMap fun text => Text.utf8 (p.name ++ ": " ++ text ++ "\n")
    let code := if pr.isBadFormat then 2 else if pr.faults.isEmpty then 0 else 1
    prints p files code pr.out.reverse.flatten err

end TiBench.Shell
