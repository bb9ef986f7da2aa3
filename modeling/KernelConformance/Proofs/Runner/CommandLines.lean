import KernelConformance.Proofs.Text.NumeralGrammar
import KernelConformance.Runner.Options
import Mathlib.Data.List.Induction

/-! The grammar of the command line. A command line is read as groups of one or two words from left
to right; it is refused at the first place where no group begins, for what stands there and whatever
follows.
-/

namespace KernelConformance.Options

-----------------------------------------------------------------------------------------
-- The grammar
-----------------------------------------------------------------------------------------

/-- What stands on a command line as one: an option with what belongs to it, or the
name of a test.
-/
inductive Group where
  | untilFailure
  | forever
  | quiet
  | beginning
  | tag (word : String)
  | processes (numeral : String) (count : Nat)
  | files (numeral : String) (count : Nat)
  | name (word : String)
  deriving DecidableEq

/-- Whether a text is a numeral of 64 bits for a count: digits, behind a plus sign
or without one.
-/
def Numeral (text : String) (count : Nat) : Prop :=
  ∃ digits,
    Decimal.Digits digits
    ∧ (text.toList = digits ∨ text.toList = '+' :: digits)
    ∧ count = Decimal.worth digits
    ∧ count ≤ 18446744073709551615

namespace Group

/-- The words of a group. -/
def words : Group → List String
  | untilFailure => ["-c"]
  | forever => ["-C"]
  | quiet => ["-q"]
  | beginning => ["-b"]
  | tag word => ["-t", word]
  | processes numeral _ => ["-p", numeral]
  | files numeral _ => ["-f", numeral]
  | name word => [word]

/-- Whether a group can stand on a command line: a count is that of its numeral, and the name of a
test does not begin with a dash.
-/
def Fits : Group → Prop
  | processes numeral count | files numeral count => Numeral numeral count
  | name word => word.toList.head? ≠ some '-'
  | _ => True

/-- The repetition that a group asks for. -/
def repetition? : Group → Option Repetition
  | untilFailure => some .untilFailure
  | forever => some .forever
  | _ => none

/-- The number of process slots that a group sets. -/
def processes? : Group → Option Nat
  | processes _ count => some count
  | _ => none

/-- The number of open files that a group sets. -/
def files? : Group → Option Nat
  | files _ count => some count
  | _ => none

/-- The name that a group selects. -/
def name? : Group → Option String
  | name word => some word
  | _ => none

/-- The tag that a group selects. -/
def tag? : Group → Option String
  | tag word => some word
  | _ => none

/-- The options with those of one more group. -/
def apply (options : Options) : Group → Options
  | untilFailure => { options with repetition := .untilFailure }
  | forever => { options with repetition := .forever }
  | quiet => options.setQuiet
  | beginning => options.matchBeginning
  | tag word => options.addTag word
  | processes _ count => options.setProcesses count
  | files _ count => options.setFiles count
  | name word => options.setName word

end Group

/-- Whether a command line is made of groups. -/
def MadeOf (args : List String) (groups : List Group) : Prop :=
  args = groups.flatMap Group.words ∧ ∀ group ∈ groups, group.Fits

/-- What stands where a group should begin, if none does, and why it is refused: for its first word,
or for the first two if a flag has a text that is no numeral. What follows does not matter.
-/
inductive Misfit : List String → OptionError → Prop where
  | help {rest} : Misfit ("-h" :: rest) .help
  | alone {flag} (flagged : flag ∈ ["-t", "-p", "-f"]) : Misfit [flag] (.missingArgument flag)
  | uncounted {flag value rest} (flagged : flag ∈ ["-p", "-f"])
    (none : ∀ count, ¬Numeral value count)
    : Misfit (flag :: value :: rest) (.invalidNumber flag value)
  | unknown {word rest} (dashed : word.toList.head? = some '-')
    (other : word ∉ ["-c", "-C", "-q", "-b", "-t", "-p", "-f", "-h"])
    : Misfit (word :: rest) (.unknownOption word)

/-- The options that groups stand for. Of those that set the same the last one counts, tags add up
in order, and for the rest it matters only whether there is one.
-/
def ofGroups (prog : String) (groups : List Group) : Options :=
  let base := default prog
  { base with
    filter :=
      { name := (groups.filterMap Group.name?).getLast?
        nameMatch := if .beginning ∈ groups then .beginning else .exact
        tags := groups.filterMap Group.tag? }
    repetition := (groups.filterMap Group.repetition?).getLast?.getD base.repetition
    config := { base.config with
      maxProcesses := (groups.filterMap Group.processes?).getLast?.getD base.config.maxProcesses
      maxOpenFiles := (groups.filterMap Group.files?).getLast?.getD base.config.maxOpenFiles
      echoConsole := .quiet ∉ groups } }

/-- Whether options differ from the default ones only in what a command line can set: a name that
does not begin with a dash, counts of 64 bits, and the rest at will.
-/
structure Expressible (prog : String) (options : Options) : Prop where
  named : options.prog = prog
  name : ∀ name, options.filter.name = some name → name.toList.head? ≠ some '-'
  processes : options.config.maxProcesses ≤ 18446744073709551615
  files : options.config.maxOpenFiles ≤ 18446744073709551615
  rest
    : options.config
      = { (default prog).config with
          maxProcesses := options.config.maxProcesses
          maxOpenFiles := options.config.maxOpenFiles
          echoConsole := options.config.echoConsole }

-----------------------------------------------------------------------------------------
-- Numerals
-----------------------------------------------------------------------------------------

/-- The numerals are the texts that are read as numbers of 64 bits: a minus sign is not read, not
even for zero.
-/
theorem numeral_iff {text : String} {count : Nat}
    : Numeral text count ↔ Decimal.readNat64 text = .ok count := by
  have reads (value : Int) :=
    @Decimal.readChars_eq_ok_iff Decimal.unsigned64 (by decide) (by decide) text.toList value
  constructor
  · intro ⟨digits, numeral, spelt, same, small⟩
    have known : Decimal.Denotes text.toList count ∧ text.toList.head? ≠ some '-' := by
      rw [same]
      rcases spelt with plain | plus
      · rw [plain]
        refine ⟨.unsigned numeral, fun minus => ?_⟩
        have digit := numeral.2 '-' (List.mem_of_head? minus)
        cases digit
      · rw [plus]
        exact ⟨.plus numeral, by simp⟩
    have read : Decimal.read Decimal.unsigned64 text = .ok (count : Int) := by
      refine (reads count).mpr ⟨known.1, ?_, fun minus => absurd minus known.2⟩
      simp only [Decimal.unsigned64]
      omega
    rw [Decimal.readNat64, read]
    rfl
  · intro read
    rw [Decimal.readNat64] at read
    rcases found : Decimal.read Decimal.unsigned64 text with error | value
    · rw [found] at read
      cases read
    · rw [found] at read
      cases read
      obtain ⟨denotes, ⟨low, high⟩, unsigned⟩ := (reads value).mp found
      generalize spelt : text.toList = chars at denotes unsigned
      simp only [Decimal.unsigned64] at low high
      cases denotes with
      | unsigned numeral => exact ⟨chars, numeral, .inl spelt, rfl, by omega⟩
      | plus numeral => exact ⟨_, numeral, .inr spelt, rfl, by omega⟩
      | minus => exact absurd (unsigned rfl) (by decide)

/-- A number that belongs to a flag is read as the count of its numeral. -/
theorem readNumber_eq_ok_iff {flag value : String} {count : Nat}
    : readNumber flag value = .ok count ↔ Numeral value count := by
  rw [numeral_iff, readNumber]
  cases Decimal.readNat64 value <;> simp

/-- What belongs to a flag is refused if it is no numeral. -/
theorem readNumber_eq_error_iff {flag value : String} {error : OptionError}
    : readNumber flag value = .error error
      ↔ error = .invalidNumber flag value ∧ ∀ count, ¬Numeral value count := by
  simp only [numeral_iff, readNumber]
  cases Decimal.readNat64 value <;> simp [eq_comm]

-----------------------------------------------------------------------------------------
-- Reading groups
-----------------------------------------------------------------------------------------

/-- A word that begins with no dash is taken as a name. -/
theorem readFrom_name {word : String} (plain : word.toList.head? ≠ some '-') (options : Options)
    (rest : List String)
    : readFrom options (word :: rest) = readFrom (options.setName word) rest := by
  rw [readFrom.eq_def]
  split <;> simp_all

/-- A word that begins with a dash and is no option is refused. -/
theorem readFrom_unknown {word : String} (dashed : word.toList.head? = some '-')
    (other : word ∉ ["-c", "-C", "-q", "-b", "-t", "-p", "-f", "-h"]) (options : Options)
    (rest : List String)
    : readFrom options (word :: rest) = .error (.unknownOption word) := by
  rw [readFrom.eq_def]
  split <;> simp_all

/-- A group is read as what it stands for, and reading goes on behind it, by cases on the group. -/
theorem readFrom_words {group : Group} (fits : group.Fits) (options : Options) (rest : List String)
    : readFrom options (group.words ++ rest) = readFrom (group.apply options) rest := by
  cases group with
  | processes numeral count =>
      have read : readNumber "-p" numeral = .ok count := readNumber_eq_ok_iff.mpr fits
      simp only [Group.words, List.cons_append, List.nil_append, readFrom, read]
      rfl
  | files numeral count =>
      have read : readNumber "-f" numeral = .ok count := readNumber_eq_ok_iff.mpr fits
      simp only [Group.words, List.cons_append, List.nil_append, readFrom, read]
      rfl
  | name word => exact readFrom_name fits options rest
  | _ => simp only [Group.words, List.cons_append, List.nil_append, readFrom, Group.apply]

/-- Groups are read one after the other, by induction on them. -/
theorem readFrom_flatMap_words {groups : List Group} (fit : ∀ group ∈ groups, group.Fits)
    (options : Options) (rest : List String)
    : readFrom options (groups.flatMap Group.words ++ rest)
      = readFrom (groups.foldl Group.apply options) rest := by
  induction groups generalizing options with
  | nil => rfl
  | cons group groups ih =>
      obtain ⟨first, others⟩ := List.forall_mem_cons.mp fit
      rw [List.flatMap_cons, List.append_assoc, readFrom_words first, ih others, List.foldl_cons]

/-- What is no group is refused for what it is, by cases on it. -/
theorem Misfit.refused {words : List String} {error : OptionError} (misfit : Misfit words error)
    (options : Options)
    : readFrom options words = .error error := by
  cases misfit with
  | help => simp only [readFrom]
  | alone flagged =>
      simp only [List.mem_cons, List.not_mem_nil, or_false] at flagged
      rcases flagged with rfl | rfl | rfl <;> simp only [readFrom]
  | uncounted flagged none =>
      simp only [List.mem_cons, List.not_mem_nil, or_false] at flagged
      have refused (flag : String) := (@readNumber_eq_error_iff flag _ _).mpr ⟨rfl, none⟩
      rcases flagged with rfl | rfl <;> simp only [readFrom, refused]
  | unknown dashed other => exact readFrom_unknown dashed other options _

-----------------------------------------------------------------------------------------
-- Every command line is divided into groups
-----------------------------------------------------------------------------------------

/-- Whether a command line is made of groups up to its end, or up to a misfit. -/
def Divided (args : List String) : Prop :=
  ∃ front groups rest,
    args = front ++ rest ∧ MadeOf front groups ∧ (rest = [] ∨ ∃ error, Misfit rest error)

theorem Misfit.divided {args : List String} {error : OptionError} (misfit : Misfit args error)
    : Divided args :=
  ⟨[], [], args, rfl, ⟨rfl, nofun⟩, .inr ⟨error, misfit⟩⟩

theorem Divided.cons {args : List String} (group : Group) (fits : group.Fits)
    (onward : Divided args)
    : Divided (group.words ++ args) := by
  obtain ⟨front, groups, rest, rfl, ⟨rfl, fit⟩, ends⟩ := onward
  exact ⟨(group :: groups).flatMap Group.words, group :: groups, rest, by simp,
    ⟨rfl, List.forall_mem_cons.mpr ⟨fits, fit⟩⟩, ends⟩

theorem ne_of_flagged {word flag : String} {rest : List String}
    (alone : word = flag → rest = [] → False)
    (followed : ∀ value others, word = flag → rest = value :: others → False)
    : word ≠ flag := by
  intro same
  cases rest with
  | nil => exact alone same rfl
  | cons value others => exact followed value others same rfl

/-- Every command line is divided, by induction on the way in which it is read. -/
theorem divided (options : Options) (args : List String) : Divided args := by
  induction options, args using readFrom.induct with
  | case1 => exact ⟨[], [], [], rfl, ⟨rfl, nofun⟩, .inl rfl⟩
  | case2 options rest ih => exact ih.cons .untilFailure trivial
  | case3 options rest ih => exact ih.cons .forever trivial
  | case4 options rest ih => exact ih.cons .quiet trivial
  | case5 options rest ih => exact ih.cons .beginning trivial
  | case6 | case8 | case11 => exact (Misfit.alone (by decide)).divided
  | case7 options word rest ih => exact ih.cons (.tag word) trivial
  | case9 options value rest error refused =>
      exact (Misfit.uncounted (by decide) (readNumber_eq_error_iff.mp refused).2).divided
  | case10 options value rest count read ih =>
      exact ih.cons (.processes value count) (readNumber_eq_ok_iff.mp read)
  | case12 options value rest error refused =>
      exact (Misfit.uncounted (by decide) (readNumber_eq_error_iff.mp refused).2).divided
  | case13 options value rest count read ih =>
      exact ih.cons (.files value count) (readNumber_eq_ok_iff.mp read)
  | case14 => exact Misfit.help.divided
  | case15 options word rest c C q b t tag p processes f files h dashed =>
      have flags := And.intro (ne_of_flagged t tag)
        (And.intro (ne_of_flagged p processes) (ne_of_flagged f files))
      refine (Misfit.unknown dashed ?_).divided
      simp only [List.mem_cons, List.not_mem_nil, or_false, not_or]
      exact ⟨c, C, q, b, flags.1, flags.2.1, flags.2.2, h⟩
  | case16 options word rest _ _ _ _ _ _ _ _ _ _ _ plain ih =>
      exact ih.cons (.name word) plain

-----------------------------------------------------------------------------------------
-- What groups stand for
-----------------------------------------------------------------------------------------

/-- One more group changes the options that groups stand for as it does when it is read, by
cases on it.
-/
theorem ofGroups_snoc (prog : String) (groups : List Group) (group : Group)
    : ofGroups prog (groups ++ [group]) = group.apply (ofGroups prog groups) := by
  cases group <;>
    simp [ofGroups, Group.apply, setQuiet, matchBeginning, addTag, setProcesses, setFiles, setName,
      Group.name?, Group.tag?, Group.repetition?, Group.processes?, Group.files?]

/-- Groups that are read one after the other give the options that they stand for, by induction on
them from the last one on.
-/
theorem foldl_apply (prog : String) (groups : List Group)
    : groups.foldl Group.apply (default prog) = ofGroups prog groups := by
  induction groups using List.reverseRecOn with
  | nil => rfl
  | append_singleton groups group ih =>
      rw [List.foldl_append, ih, ofGroups_snoc]
      rfl

theorem read_groups {prog : String} {front : List String} {groups : List Group}
    (made : MadeOf front groups) (rest : List String)
    : read prog (front ++ rest) = readFrom (ofGroups prog groups) rest := by
  obtain ⟨rfl, fit⟩ := made
  rw [read, readFrom_flatMap_words fit, foldl_apply]

/-- A command line is read exactly if it is made of groups, as what these stand for. -/
theorem read_eq_ok_iff {prog : String} {args : List String} {options : Options}
    : read prog args = .ok options
      ↔ ∃ groups, MadeOf args groups ∧ options = ofGroups prog groups := by
  constructor
  · intro done
    obtain ⟨front, groups, rest, rfl, made, rfl | ⟨error, misfit⟩⟩ := divided options args
    · rw [read_groups made, readFrom] at done
      rw [List.append_nil]
      exact ⟨groups, made, (Except.ok.inj done).symm⟩
    · rw [read_groups made, misfit.refused] at done
      cases done
  · intro ⟨groups, made, same⟩
    have read := @read_groups prog _ _ made []
    rw [List.append_nil] at read
    rw [read, readFrom, same]

/-- A command line is refused for the first misfit behind its groups. -/
theorem read_eq_error_iff {prog : String} {args : List String} {error : OptionError}
    : read prog args = .error error
      ↔ ∃ front groups rest, args = front ++ rest ∧ MadeOf front groups ∧ Misfit rest error := by
  constructor
  · intro refused
    obtain ⟨front, groups, rest, rfl, made, rfl | ⟨other, misfit⟩⟩ := divided (default prog) args
    · rw [read_groups made, readFrom] at refused
      cases refused
    · have same := refused
      rw [read_groups made, misfit.refused] at same
      cases same
      exact ⟨front, groups, rest, rfl, made, misfit⟩
  · intro ⟨front, groups, rest, same, made, misfit⟩
    rw [same, read_groups made, misfit.refused]

-----------------------------------------------------------------------------------------
-- All options can be asked for
-----------------------------------------------------------------------------------------

/-- Groups that ask for options. -/
def groupsFor (options : Options) : List Group :=
  (match options.repetition with
    | .once => []
    | .untilFailure => [.untilFailure]
    | .forever => [.forever])
  ++ (if options.config.echoConsole then [] else [.quiet])
  ++ (match options.filter.nameMatch with
    | .exact => []
    | .beginning => [.beginning])
  ++ options.filter.tags.map .tag
  ++ [.processes (toString options.config.maxProcesses) options.config.maxProcesses,
    .files (toString options.config.maxOpenFiles) options.config.maxOpenFiles]
  ++ options.filter.name.toList.map .name

theorem numeral_toString {count : Nat} (small : count ≤ 18446744073709551615)
    : Numeral (toString count) count := by
  rw [numeral_iff, Decimal.readNat64_toString, if_pos small]

theorem fits_groupsFor {prog : String} {options : Options} (expressible : Expressible prog options)
    : ∀ group ∈ groupsFor options, group.Fits := by
  obtain ⟨-, name, processes, files, -⟩ := expressible
  simp only [groupsFor, List.forall_mem_append, List.forall_mem_map, List.forall_mem_cons]
  refine ⟨⟨⟨⟨⟨?_, ?_⟩, ?_⟩, ?_⟩, ?_, ?_, nofun⟩, ?_⟩
  · cases options.repetition <;> simp [Group.Fits]
  · split <;> simp [Group.Fits]
  · cases options.filter.nameMatch <;> simp [Group.Fits]
  · exact fun _ _ => trivial
  · exact numeral_toString processes
  · exact numeral_toString files
  · exact fun word member => name word (Option.mem_toList.mp member)

/-- Tags add up, by induction on them. -/
theorem foldl_tags (tags : List String) (options : Options)
    : (tags.map Group.tag).foldl Group.apply options
      = { options with
          filter := { options.filter with tags := options.filter.tags ++ tags } } := by
  induction tags generalizing options with
  | nil => simp
  | cons tag tags ih =>
      rw [List.map_cons, List.foldl_cons, ih]
      simp [Group.apply, addTag]

/-- The groups that ask for options stand for them, by cases on what they set. -/
theorem ofGroups_groupsFor {prog : String} {options : Options}
    (expressible : Expressible prog options)
    : ofGroups prog (groupsFor options) = options := by
  obtain ⟨rfl, -, -, -, rest⟩ := expressible
  obtain ⟨prog, ⟨name, nameMatch, tags⟩, repetition, config⟩ := options
  obtain ⟨processes, files, nameLength, echo, mask⟩ := config
  simp only [default, Config.mk.injEq, true_and] at rest
  obtain ⟨rfl, rfl⟩ := rest
  simp only [← foldl_apply, groupsFor, List.foldl_append, foldl_tags]
  cases repetition <;> cases nameMatch <;> cases echo <;> cases name <;> rfl

/-- Options are what some command line is read as, if they can be expressed. -/
theorem exists_args {prog : String} {options : Options} (expressible : Expressible prog options)
    : ∃ args, read prog args = .ok options :=
  ⟨_, read_eq_ok_iff.mpr ⟨groupsFor options, ⟨rfl, fits_groupsFor expressible⟩,
    (ofGroups_groupsFor expressible).symm⟩⟩

/-- A command line is accepted exactly if it is made of groups, and is then read as the options that
they stand for; it is refused exactly if it is not, for the first misfit in it. All options that can
be expressed are those of some command line.
-/
theorem read_by_grammar (prog : String)
    : (∀ args options,
        read prog args = .ok options
        ↔ ∃ groups, MadeOf args groups ∧ options = ofGroups prog groups)
      ∧ (∀ args error,
          read prog args = .error error
          ↔ ∃ front groups rest, args = front ++ rest ∧ MadeOf front groups ∧ Misfit rest error)
      ∧ ∀ options, Expressible prog options → ∃ args, read prog args = .ok options :=
  ⟨fun _ _ => read_eq_ok_iff, fun _ _ => read_eq_error_iff, fun _ => exists_args⟩

-- what looks like an option belongs to the flag before it, and of two names the last one counts
example
    : read "usertests" ["fib", "-t", "-h", "-p", "+03", "", "-q"]
      = .ok
          { prog := "usertests"
            filter := ⟨some "", .exact, ["-h"]⟩
            repetition := .once
            config := { Config.standard with maxProcesses := 3 } } := by
  rfl

end KernelConformance.Options
