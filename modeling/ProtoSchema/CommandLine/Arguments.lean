import ProtoSchema.Text.Affix
import ProtoSchema.Text.Digit
import ProtoSchema.Text.Split

set_option autoImplicit false

/-! # Reading the command line

The words of a command line are sorted into options and operands, and the options are then carried
out from left to right. Long options may be shortened as long as they stay unambiguous, short
switches may share a word, and the value of an option may stand in the same word or in the next one.
The operands are the input files; they have to stand in one run. -/

namespace ProtoSchema.CommandLine

/-! ## Options -/

/-- Options without a value. -/
inductive Switch where
  | help | includeResponses | quiet | verbose
deriving DecidableEq

/-- Options with a value. -/
inductive Setting where
  | includePath | outputDirectory
deriving DecidableEq

/-- An option. -/
inductive OptionKind where
  | switch (s : Switch)
  | setting (s : Setting)
deriving DecidableEq

/-- The spellings of the options. -/
def optionNames : List (String × OptionKind) :=
  [("-h", .switch .help), ("--help", .switch .help),
   ("--include-responses", .switch .includeResponses),
   ("-I", .setting .includePath), ("--proto-path", .setting .includePath),
   ("-D", .setting .outputDirectory), ("--output-dir", .setting .outputDirectory),
   ("-q", .switch .quiet), ("--quiet", .switch .quiet),
   ("-v", .switch .verbose), ("--verbose", .switch .verbose)]

/-- Why the program ends before it starts. -/
inductive Exit where
  /-- The user asked for help. -/
  | help
  /-- The command line is not well formed. -/
  | usage
deriving DecidableEq

/-- The exit status. -/
def Exit.status : Exit → Nat
  | help => 0
  | usage => 2

/-- How the program is called. -/
def usage (program : String) : String :=
  "usage: " ++ program ++ " [-h] [--include-responses] [-I DIR] [-D DIR] [-q] [-v] FILE ..."

/-! ## Words -/

/-- The use of an option in a word. -/
structure OptionUse where
  kind : OptionKind
  /-- The option is spelled with two dashes. -/
  long : Bool
  /-- What stands after the option in the same word. -/
  attached : Option (List Char)

/-- A word of the command line. -/
inductive Word where
  | operand (text : String)
  /-- The two dashes after which every word is an operand. -/
  | separator
  | option (use : OptionUse)
  /-- A word that looks like an option and is none. -/
  | unknown

/-- Whether the text is a decimal number without a sign: digits, or a point with digits behind it
    and perhaps before it. -/
def isDecimalNumber (text : List Char) : Bool :=
  match text.dropWhile Text.isDecimalDigit with
  | [] => !text.isEmpty
  | '.' :: places => !places.isEmpty && places.all Text.isDecimalDigit
  | _ => false

/-- Whether a word is a dash and a decimal number, which is an operand. A line break at the end does
    not count. -/
def isNegativeNumber : List Char → Bool
  | '-' :: text =>
    isDecimalNumber (if text.getLast? = some '\n' then text.dropLast else text)
  | _ => false

/-- The part of a word before the first equals sign, and the text attached by it. -/
def cutEquals (word : String) : String × Option (List Char) :=
  let parts := Text.cut '=' word
  (parts.1, if word.toList.contains '=' then some parts.2.toList else none)

/-- The options that a word may stand for when it is not one of the spellings itself: those that a
    long spelling abbreviates, or the one that a short spelling starts with. -/
def candidates (word : String) : List OptionUse :=
  match word.toList with
  | '-' :: '-' :: _ =>
    let (name, attached) := cutEquals word
    (optionNames.filter fun entry => Text.startsWith name entry.1).map fun entry =>
      ⟨entry.2, true, attached⟩
  | '-' :: c :: rest =>
    (optionNames.filter fun entry => entry.1 = String.ofList ['-', c]).map fun entry =>
      ⟨entry.2, false, some rest⟩
  | _ => []

/-- Sort a word in front of the separator. -/
def Word.classify (word : String) : Except Exit Word :=
  if !Text.startsWith "-" word || word = "-" then .ok (.operand word)
  else match optionNames.lookup word with
    | some kind => .ok (.option ⟨kind, Text.startsWith "--" word, none⟩)
    | none =>
      let (name, attached) := cutEquals word
      match (if attached.isSome then optionNames.lookup name else none) with
      | some kind => .ok (.option ⟨kind, Text.startsWith "--" word, attached⟩)
      | none =>
        match candidates word with
        | [use] => .ok (.option use)
        | _ :: _ :: _ => .error .usage
        | [] =>
          if isNegativeNumber word.toList || word.toList.contains ' ' then .ok (.operand word)
          else .ok .unknown

/-- Sort the words of a command line. -/
def Word.classifyAll : List String → Except Exit (List Word)
  | [] => .ok []
  | word :: words =>
    if word = "--" then .ok (.separator :: words.map .operand)
    else do
      let first ← classify word
      let rest ← classifyAll words
      return first :: rest

/-! ## Clusters -/

/-- How a word of options ends. -/
inductive ClusterEnd where
  /-- With a switch. -/
  | complete
  /-- With a setting and its value. -/
  | value (s : Setting) (text : Option String)
  /-- With a setting whose value is the next word. -/
  | awaiting (s : Setting)

/-- The options of one word: switches in order, and how the word ends. -/
structure Cluster where
  switches : List Switch
  last : ClusterEnd

/-- The value that attached text gives to a setting. Two dashes are never a value, so a setting that
    has nothing else attached is left without one. -/
def attachedValue (text : List Char) : Option String :=
  if text = ['-', '-'] then none else some (String.ofList text)

/-- Take a word of short options apart, given its first option and the text attached to it. Text
    after a setting is its value; text after a switch has to be further options. -/
def shortCluster (kind : OptionKind) (attached : Option (List Char)) : Except Exit Cluster :=
  match kind, attached with
  | .setting s, none => .ok ⟨[], .awaiting s⟩
  | .setting s, some text => .ok ⟨[], .value s (attachedValue text)⟩
  | .switch s, none => .ok ⟨[s], .complete⟩
  | .switch _, some [] => .error .usage
  | .switch s, some (c :: rest) =>
    match optionNames.lookup (String.ofList ['-', c]) with
    | none => .error .usage
    | some next =>
      match shortCluster next (if rest.isEmpty then none else some rest) with
      | .error e => .error e
      | .ok cluster => .ok ⟨s :: cluster.switches, cluster.last⟩
termination_by (attached.map List.length).getD 0
decreasing_by
  split <;> simp

/-- The options of a word. A long switch takes no value. -/
def OptionUse.cluster (use : OptionUse) : Except Exit Cluster :=
  if use.long then
    match use.kind, use.attached with
    | .switch s, none => .ok ⟨[s], .complete⟩
    | .switch _, some _ => .error .usage
    | .setting s, none => .ok ⟨[], .awaiting s⟩
    | .setting s, some text => .ok ⟨[], .value s (attachedValue text)⟩
  else shortCluster use.kind use.attached

/-! ## Carrying out -/

/-- What the command line asks for. A directory may have been named without a value. -/
structure Arguments where
  files : List String := []
  includeResponses : Bool := false
  includePaths : List (Option String) := []
  outputDirectory : Option String := some ""
  quiet : Bool := false
  verbose : Bool := false
deriving DecidableEq

/-- Where the run of input files stands. -/
inductive Operands where
  | before | inside | after
deriving DecidableEq

/-- What has been read so far. -/
structure Progress where
  arguments : Arguments := {}
  run : Operands := .before
  /-- Some word could not be used. -/
  leftover : Bool := false

namespace Progress

/-- Turn on a switch; help ends the program. -/
def turnOn (p : Progress) : Switch → Except Exit Progress
  | .help => .error .help
  | .includeResponses => .ok { p with arguments.includeResponses := true }
  | .quiet => .ok { p with arguments.quiet := true }
  | .verbose => .ok { p with arguments.verbose := true }

/-- Set a value: include paths add up, of output directories the last one counts. -/
def set (p : Progress) (value : Option String) : Setting → Progress
  | .includePath => { p with arguments.includePaths := p.arguments.includePaths ++ [value] }
  | .outputDirectory => { p with arguments.outputDirectory := value }

/-- Take an operand as an input file, unless the run of input files is over. -/
def takeFile (p : Progress) (file : String) : Progress :=
  if p.run = .after then { p with leftover := true }
  else { p with arguments.files := p.arguments.files ++ [file], run := .inside }

/-- Go past an option, which ends the run of input files. -/
def passOption (p : Progress) : Progress :=
  { p with run := if p.run = .inside then .after else p.run }

/-- Carry out the words one after the other. -/
def carryOut : List Word → Progress → Except Exit Progress
  | [], p => .ok p
  | .operand text :: words, p => carryOut words (p.takeFile text)
  | .separator :: words, p =>
    carryOut words { p with leftover := p.leftover || p.run = .after }
  | .unknown :: words, p => carryOut words { p.passOption with leftover := true }
  | .option use :: words, p => do
    let cluster ← use.cluster
    match cluster.last, words with
    | .complete, words => do
      let p ← cluster.switches.foldlM turnOn p.passOption
      carryOut words p
    | .value s text, words => do
      let p ← cluster.switches.foldlM turnOn p.passOption
      carryOut words (p.set text s)
    | .awaiting s, .operand text :: words => do
      let p ← cluster.switches.foldlM turnOn p.passOption
      carryOut words (p.set (some text) s)
    | .awaiting _, _ => .error .usage

end Progress

/-- Read a command line. There has to be an input file, and every word has to be used. -/
def Arguments.parse (words : List String) : Except Exit Arguments := do
  let sorted ← Word.classifyAll words
  let p ← Progress.carryOut sorted {}
  if p.leftover || p.arguments.files.isEmpty then .error .usage else return p.arguments

end ProtoSchema.CommandLine
