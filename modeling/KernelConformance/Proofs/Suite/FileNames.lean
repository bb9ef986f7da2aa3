import KernelConformance.Proofs.Files.AdmittedNames
import KernelConformance.Proofs.Suite.RecurrenceCalls
import KernelConformance.Proofs.Text.Records
import KernelConformance.Suite.Programs

/-! The names of the files that the tests make. A name is the stem of its family, and in most
families the text of a number after it. No stem begins another and numbers have different texts, so
each file has a name of its own; and every name is short, so that a kernel takes it wherever the
longest ones are allowed.
-/

namespace KernelConformance

-----------------------------------------------------------------------------------------
-- Stems and numbers
-----------------------------------------------------------------------------------------

/-- Texts that begin the same text are the same if neither begins the other, and so is
what follows them.
-/
theorem append_inj_of_apart {left right first second : String}
    (apart : left.toList <+: right.toList → left = right)
    (apartToo : right.toList <+: left.toList → right = left)
    (same : left ++ first = right ++ second)
    : left = right ∧ first = second := by
  have begins : left.toList <+: (left ++ first).toList := by
    rw [String.toList_append]
    exact List.prefix_append _ _
  have beginsToo : right.toList <+: (left ++ first).toList := by
    rw [same, String.toList_append]
    exact List.prefix_append _ _
  have stem : left = right := by
    rcases List.prefix_or_prefix_of_prefix begins beginsToo with shorter | longer
    · exact apart shorter
    · exact (apartToo longer).symm
  subst stem
  exact ⟨rfl, (String.append_right_inj left).mp same⟩

namespace Decimal

variable {n : Nat}

theorem write_ofNat (small : n ≤ 2147483647) : write (Int32.ofNat n) = toString n := by
  rw [write, Int32.toInt_ofNat_of_lt (by omega)]
  rfl

/-- The text of a number that is small enough has at most ten digits. -/
theorem byteSize_write_ofNat_le (small : n ≤ 2147483647)
    : (write (Int32.ofNat n)).utf8ByteSize ≤ 10 := by
  rw [Utf8.byteSize_of_ascii (ascii_write _), write_ofNat small, Nat.toString_eq_ofList_toDigits,
    String.toList_ofList]
  exact (Nat.length_toDigits_le_iff (by decide) (by decide)).mpr (by omega)

/-- Numbers have different texts. -/
theorem toString_inj {other : Nat} (same : toString n = toString other) : n = other := by
  rw [Nat.toString_eq_ofList_toDigits, Nat.toString_eq_ofList_toDigits] at same
  have digits := String.ofList_injective same
  rw [← Nat.ofDigitChars_ten_toDigits (n := n), digits, Nat.ofDigitChars_ten_toDigits]

end Decimal

-----------------------------------------------------------------------------------------
-- Files
-----------------------------------------------------------------------------------------

/-- A file that the tests make: one of the two of a numbered run of the recurrence, that of a
numbered probe, or that of the probe that is alone.
-/
inductive TestFile where
  | first (index : Int32)
  | second (index : Int32)
  | probed (index : Int32)
  | lone
  deriving DecidableEq

namespace TestFile

variable {config : Config} {deeds : List Deed} {kernel : Kernel}

/-- The name that the tests give to a file. -/
def name : TestFile → String
  | first index => (FilePair.ofIndex index).first
  | second index => (FilePair.ofIndex index).second
  | probed index => MultiProg.instanceFile index
  | lone => Probe.loneFile

/-- What the names of the files of a family begin with. -/
def stem : TestFile → String
  | first _ => "fb_temp_a_"
  | second _ => "fb_temp_b_"
  | probed _ => "test.txt.test."
  | lone => "nachos_test_fd.txt.test"

/-- What tells the files of a family apart. -/
def number : TestFile → String
  | first index | second index | probed index => Decimal.write index
  | lone => ""

/-- The stems of all families. -/
def stems : List String := ["fb_temp_a_", "fb_temp_b_", "test.txt.test.", "nachos_test_fd.txt.test"]

theorem name_eq (file : TestFile) : file.name = file.stem ++ file.number := by
  cases file <;> rfl

theorem stem_mem (file : TestFile) : file.stem ∈ stems := by
  cases file <;> simp [stem, stems]

/-- No stem begins another. -/
theorem stems_apart
    : ∀ left ∈ stems, ∀ right ∈ stems, left.toList <+: right.toList → left = right := by
  decide

/-- A file is known by its stem and its number, by cases on the two families. -/
theorem eq_of_stem_of_number {file other : TestFile} (stems : file.stem = other.stem)
    (numbers : file.number = other.number)
    : file = other := by
  cases file <;> cases other <;> simp [stem] at stems
  case lone.lone => rfl
  all_goals exact congrArg _ (Decimal.write_injective numbers)

/-- Files have different names. -/
theorem name_injective : Function.Injective name := by
  intro file other same
  rw [name_eq, name_eq] at same
  obtain ⟨stems, numbers⟩ :=
    append_inj_of_apart (stems_apart _ file.stem_mem _ other.stem_mem)
      (stems_apart _ other.stem_mem _ file.stem_mem) same
  exact eq_of_stem_of_number stems numbers

theorem byteSize_name (file : TestFile)
    : file.name.utf8ByteSize = file.stem.utf8ByteSize + file.number.utf8ByteSize := by
  rw [name_eq, String.utf8ByteSize_append]

/-- The longest names are those of numbered probes. -/
theorem byteSize_name_le (file : TestFile) : file.name.utf8ByteSize ≤ 25 := by
  rw [byteSize_name]
  cases file with
  | first index => exact Nat.add_le_add (by decide : 10 ≤ 14) (Decimal.byteSize_write_le index)
  | second index => exact Nat.add_le_add (by decide : 10 ≤ 14) (Decimal.byteSize_write_le index)
  | probed index => exact Nat.add_le_add_left (Decimal.byteSize_write_le index) 14
  | lone => decide

/-- The names of the files of a run have ten bytes and a number. -/
theorem byteSize_le_of_names {index : Int32} {name : String}
    (uses : (FilePair.ofIndex index).Names name)
    : name.utf8ByteSize ≤ 21 := by
  have digits := Decimal.byteSize_write_le index
  rcases uses with rfl | rfl
  · exact Nat.le_trans (Nat.le_of_eq (byteSize_name (first index))) (Nat.add_le_add_left digits 10)
  · exact Nat.le_trans (Nat.le_of_eq (byteSize_name (second index))) (Nat.add_le_add_left digits 10)

/-- A number that is small enough needs ten bytes and not eleven. -/
theorem byteSize_name_le_of_small {file : TestFile} {n : Nat} (small : n ≤ 2147483647)
    (numbered : file.number = Decimal.write (Int32.ofNat n))
    : file.name.utf8ByteSize ≤ file.stem.utf8ByteSize + 10 := by
  rw [byteSize_name, numbered]
  exact Nat.add_le_add_left (Decimal.byteSize_write_ofNat_le small) _

theorem name_ne_empty (file : TestFile) : file.name ≠ "" := by
  have positive : ∀ stem ∈ stems, 0 < stem.utf8ByteSize := by decide
  have stem := positive _ file.stem_mem
  intro empty
  have nothing := file.byteSize_name
  rw [empty, String.utf8ByteSize_empty] at nothing
  omega

/-- A name consists of the characters of its stem, a sign and digits. -/
theorem nul_notMem_name (file : TestFile) : Char.ofNat 0 ∉ file.name.toList := by
  have plain : ∀ stem ∈ stems, Char.ofNat 0 ∉ stem.toList := by decide
  rw [name_eq, String.toList_append, List.mem_append]
  rintro (stem | number)
  · exact plain _ file.stem_mem stem
  · cases file with
    | lone => cases number
    | _ => exact absurd (Decimal.toNat_of_mem_write number).1 (by decide)

/-- A kernel takes the name of a file if it is not too long, as nothing else is wrong with it. -/
theorem takes_iff (run : Kernel.Run config deeds kernel) (file : TestFile)
    : kernel.Takes file.name ↔ file.name.utf8ByteSize ≤ config.maxNameLength := by
  rw [run.takes_iff]
  exact ⟨fun proper => proper.2.1, fun short => ⟨file.name_ne_empty, short, file.nul_notMem_name⟩⟩

theorem accepted (run : Kernel.Run config deeds kernel) (file : TestFile)
    (fits : file.name.utf8ByteSize ≤ config.maxNameLength)
    : kernel.files.acceptsName file.name = true :=
  Kernel.takes_iff.mp ((takes_iff run file).mpr fits)

/-- The least number has the longest text, so a kernel that takes the name with it
takes all names.
-/
theorem takes_all_iff (run : Kernel.Run config deeds kernel)
    : (∀ file : TestFile, kernel.Takes file.name) ↔ 25 ≤ config.maxNameLength := by
  have longest : (probed Int32.minValue).name.utf8ByteSize = 25 := by decide
  constructor
  · intro takes
    rw [← longest]
    exact (takes_iff run _).mp (takes _)
  · intro long file
    exact (takes_iff run file).mpr (Nat.le_trans file.byteSize_name_le long)

theorem takes_pairs_iff (run : Kernel.Run config deeds kernel)
    : (∀ index name, (FilePair.ofIndex index).Names name → kernel.Takes name)
      ↔ 21 ≤ config.maxNameLength := by
  have longest : (first Int32.minValue).name.utf8ByteSize = 21 := by decide
  constructor
  · intro takes
    rw [← longest]
    exact (takes_iff run (first _)).mp (takes _ _ (.inl rfl))
  · intro long index name uses
    have short := Nat.le_trans (byteSize_le_of_names uses) long
    rcases uses with rfl | rfl
    · exact (takes_iff run (first index)).mpr short
    · exact (takes_iff run (second index)).mpr short

end TestFile

namespace FilePair

variable {n other : Nat} {name : String}

theorem ofIndex_different (index : Int32) : (ofIndex index).first ≠ (ofIndex index).second := by
  intro same
  have files : TestFile.first index = .second index := TestFile.name_injective same
  cases files

/-- Runs with different numbers have different files. -/
theorem ofIndex_inj {left right : Int32} (uses : (ofIndex left).Names name)
    (used : (ofIndex right).Names name)
    : left = right := by
  rcases uses with rfl | rfl <;> rcases used with same | same
  · exact TestFile.first.inj (TestFile.name_injective same)
  · cases (TestFile.name_injective same : TestFile.first left = .second right)
  · cases (TestFile.name_injective same : TestFile.second left = .first right)
  · exact TestFile.second.inj (TestFile.name_injective same)

theorem ofIndex_disjoint (small : n ≤ 2147483647) (smallToo : other ≤ 2147483647)
    (uses : (ofIndex (Int32.ofNat n)).Names name) (used : (ofIndex (Int32.ofNat other)).Names name)
    : n = other := by
  have texts := congrArg Decimal.write (ofIndex_inj uses used)
  rw [Decimal.write_ofNat small, Decimal.write_ofNat smallToo] at texts
  exact Decimal.toString_inj texts

/-- Both files of a run with a small number have names that they can have. -/
theorem ofIndex_accepted {config : Config} {deeds : List Deed} {kernel : Kernel}
    (run : Kernel.Run config deeds kernel) (long : 20 ≤ config.maxNameLength)
    (small : n ≤ 2147483647) (uses : (ofIndex (Int32.ofNat n)).Names name)
    : kernel.files.acceptsName name = true := by
  rcases uses with rfl | rfl
  · exact TestFile.accepted run (.first _)
      (Nat.le_trans (TestFile.byteSize_name_le_of_small small rfl) long)
  · exact TestFile.accepted run (.second _)
      (Nat.le_trans (TestFile.byteSize_name_le_of_small small rfl) long)

end FilePair

-----------------------------------------------------------------------------------------
-- All names
-----------------------------------------------------------------------------------------

namespace TestFile

variable {config : Config} {deeds : List Deed} {kernel : Kernel}

/-- No two files have the same name: not the two of a run of the recurrence, not those of runs or of
probes with different numbers, not those of a run and of a probe, and not any of these and that of
the probe that is alone. Every name is one that a file can have. A kernel takes all of them exactly
if names of 25 bytes are allowed, and those of the runs exactly if names of 21 are.
-/
theorem names_never_collide (run : Kernel.Run config deeds kernel)
    : Function.Injective name
      ∧ (∀ file : TestFile,
          file.name ≠ ""
          ∧ Char.ofNat 0 ∉ file.name.toList
          ∧ file.name.utf8ByteSize ≤ 25)
      ∧ ((∀ file : TestFile, kernel.Takes file.name) ↔ 25 ≤ config.maxNameLength)
      ∧ ((∀ index name, (FilePair.ofIndex index).Names name → kernel.Takes name)
        ↔ 21 ≤ config.maxNameLength) := by
  refine ⟨name_injective, fun file => ?_, takes_all_iff run, takes_pairs_iff run⟩
  exact ⟨file.name_ne_empty, file.nul_notMem_name, file.byteSize_name_le⟩

/-- The limits of a kernel that the longest name just fits into. -/
def tight : Config := { Config.standard with maxNameLength := 25 }

/-- The deeds of a process that makes a file of each family, with the least number in its name. -/
def tightDeeds : List Deed :=
  [
    .register "p",
    .spawn "p" [] (.ok (.ofNat 1)),
    .call (.ofNat 1) (.creat "fb_temp_a_-2147483648") (some (.ok ⟨2⟩)),
    .call (.ofNat 1) (.creat "fb_temp_b_-2147483648") (some (.ok ⟨3⟩)),
    .call (.ofNat 1) (.creat "test.txt.test.-2147483648") (some (.ok ⟨4⟩)),
    .call (.ofNat 1) (.creat "nachos_test_fd.txt.test") (some (.ok ⟨5⟩))
  ]

/-- Four files are there after these deeds, and the kernel takes all other names too. -/
theorem names_never_collide_least
    : ∃ kernel,
        Kernel.Run tight tightDeeds kernel
        ∧ kernel.files.size = 4
        ∧ Function.Injective name
        ∧ ∀ file : TestFile, kernel.Takes file.name := by
  obtain ⟨kernel, run, made⟩
      : ∃ kernel, Kernel.Run tight tightDeeds kernel ∧ kernel.files.size = 4 :=
    ⟨_, .extend .boot (.cons (.register "p") <| .cons (.spawn rfl) <| .cons (.call rfl rfl)
      <| .cons (.call rfl rfl) <| .cons (.call rfl rfl) <| .cons (.call rfl rfl) .nil), rfl⟩
  obtain ⟨distinct, -, all, -⟩ := names_never_collide run
  exact ⟨kernel, run, made, distinct, all.mpr (by decide)⟩

end TestFile

end KernelConformance
