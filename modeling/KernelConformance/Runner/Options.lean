import KernelConformance.Kernel.Config
import KernelConformance.Text.Decimal

/-! The options of a run of the suite, and how they are read from a command line. -/

namespace KernelConformance

/-- A test: a program with arguments, under a name and some tags. -/
structure TestCase where
  name : String
  program : String
  args : List String
  tags : List String
  deriving DecidableEq

/-- Whether a name selects the tests that have it or those that begin with it. -/
inductive NameMatch where
  | exact
  | beginning
  deriving DecidableEq

/-- Which tests are selected: by name, if there is one, and by any of the tags, if
there are some.
-/
structure Selection where
  name : Option String
  nameMatch : NameMatch
  tags : List String
  deriving DecidableEq

/-- How often the tests are run. -/
inductive Repetition where
  | once
  | untilFailure
  | forever
  deriving DecidableEq

/-- The options of a run. -/
structure Options where
  prog : String
  filter : Selection
  repetition : Repetition
  config : Config
  deriving DecidableEq

/-- Why a command line is refused. -/
inductive OptionError where
  | help
  | missingArgument (flag : String)
  | invalidNumber (flag value : String)
  | unknownOption (option : String)
  deriving DecidableEq

/-- The wording of a refusal. -/
def OptionError.message : OptionError → String
  | .help => "help requested"
  | .missingArgument flag => "missing argument for " ++ flag
  | .invalidNumber flag value => "invalid argument for " ++ flag ++ ": " ++ Text.quoted value
  | .unknownOption option => "unknown option " ++ Text.quoted option

/-- Whether a name matches that of a test. -/
def NameMatch.accepts : NameMatch → String → String → Bool
  | .exact, wanted, name => name = wanted
  | .beginning, wanted, name => wanted.toList.isPrefixOf name.toList

namespace Selection

/-- Whether a test is selected. -/
def accepts (filter : Selection) (test : TestCase) : Bool :=
  filter.name.all (filter.nameMatch.accepts · test.name)
    && (filter.tags.isEmpty || filter.tags.any (· ∈ test.tags))

end Selection

namespace Options

/-- The options without a command line: all tests once, showing what they print. -/
def default (prog : String) : Options where
  prog
  filter := ⟨none, .exact, []⟩
  repetition := .once
  config := { Config.standard with echoConsole := true }

/-- Selects by name. -/
def setName (name : String) (options : Options) : Options :=
  { options with filter := { options.filter with name := some name } }

/-- Lets the name select all tests that begin with it. -/
def matchBeginning (options : Options) : Options :=
  { options with filter := { options.filter with nameMatch := .beginning } }

/-- Selects by one more tag. -/
def addTag (tag : String) (options : Options) : Options :=
  { options with filter := { options.filter with tags := options.filter.tags ++ [tag] } }

/-- Does not show what the tests print. -/
def setQuiet (options : Options) : Options :=
  { options with config := { options.config with echoConsole := false } }

/-- Sets the number of process slots. -/
def setProcesses (count : Nat) (options : Options) : Options :=
  { options with config := { options.config with maxProcesses := count } }

/-- Sets the number of open files per process. -/
def setFiles (count : Nat) (options : Options) : Options :=
  { options with config := { options.config with maxOpenFiles := count } }

/-- Reads the number that belongs to a flag. -/
def readNumber (flag value : String) : Except OptionError Nat :=
  match Decimal.readNat64 value with
  | .ok number => .ok number
  | .error _ => .error (.invalidNumber flag value)

/-- Reads a command line from left to right. A later option replaces an earlier one, except that
tags add up; an argument belongs to its flag whatever it looks like; the first error counts.
-/
def readFrom : Options → List String → Except OptionError Options
  | options, [] => .ok options
  | options, "-c" :: rest => readFrom { options with repetition := .untilFailure } rest
  | options, "-C" :: rest => readFrom { options with repetition := .forever } rest
  | options, "-q" :: rest => readFrom options.setQuiet rest
  | options, "-b" :: rest => readFrom options.matchBeginning rest
  | _, ["-t"] => .error (.missingArgument "-t")
  | options, "-t" :: tag :: rest => readFrom (options.addTag tag) rest
  | _, ["-p"] => .error (.missingArgument "-p")
  | options, "-p" :: value :: rest =>
      match readNumber "-p" value with
      | .error error => .error error
      | .ok count => readFrom (options.setProcesses count) rest
  | _, ["-f"] => .error (.missingArgument "-f")
  | options, "-f" :: value :: rest =>
      match readNumber "-f" value with
      | .error error => .error error
      | .ok count => readFrom (options.setFiles count) rest
  | _, "-h" :: _ => .error .help
  | options, word :: rest =>
      if word.toList.head? = some '-' then .error (.unknownOption word)
      else readFrom (options.setName word) rest

/-- Reads the arguments of a command line. -/
def read (prog : String) (args : List String) : Except OptionError Options :=
  readFrom (default prog) args

/-- The tests that are selected, in the order of the list. -/
def selected (options : Options) (tests : List TestCase) : List TestCase :=
  tests.filter options.filter.accepts

/-- The description of options. -/
def description (options : Options) : String :=
  let matching := match options.filter.nameMatch with
    | .exact => "Exact"
    | .beginning => "Beginning"
  let repetition := match options.repetition with
    | .once => "Once"
    | .untilFailure => "UntilFailure"
    | .forever => "Forever"
  let filter := Text.described "TestFilter"
    [("name", Text.optional (options.filter.name.map Text.quoted)),
      ("name_match_type", matching), ("tags", Text.quotedList options.filter.tags)]
  Text.described "TestParam"
    [("prog", Text.quoted options.prog), ("filter", filter), ("continuous", repetition),
      ("config", options.config.description)]

end Options

end KernelConformance
