import KernelConformance.Proofs.Programs.TraceLines
import KernelConformance.Proofs.Text.LossyDecoding

/-! Taking what the console shows. The host can take it at any points, and the texts taken and what
is left are together the text of all that was written, provided that no text is taken whose bytes
end inside a character.
-/

namespace KernelConformance

open Utf8 (Bytes)

/-- The text that a deed has taken from the console. -/
def Deed.takenText? : Deed → Option String
  | takeConsole text => some text
  | _ => none

/-- The texts that some deeds have taken from the console, in order. -/
def takenTexts (deeds : List Deed) : List String := deeds.filterMap Deed.takenText?

/-- The deeds that do not take the console. -/
def withoutTakes (deeds : List Deed) : List Deed := deeds.filter (·.takenText?.isNone)

@[simp] theorem takenTexts_snoc (deeds : List Deed) (deed : Deed)
    : takenTexts (deeds ++ [deed]) = takenTexts deeds ++ deed.takenText?.toList :=
  filterMap_snoc _ _ _

@[simp] theorem withoutTakes_snoc (deeds : List Deed) (deed : Deed)
    : withoutTakes (deeds ++ [deed])
      = withoutTakes deeds ++ if deed.takenText? = none then [deed] else [] := by
  cases taken : deed.takenText? <;> simp [withoutTakes, taken]

namespace Kernel

/-- What a deed writes to the console: what a process prints, and then the line that traces its call
or its exit.
-/
def writes (kernel : Kernel) : Deed → List Write
  | .call pid c reply =>
      (Outcome.acted (kernel.context pid).name (.call pid c reply)).written kernel.config.traceMask
  | .finish pid ending =>
      (Outcome.acted (kernel.context pid).name (.finish pid ending)).written kernel.config.traceMask
  | _ => []

/-- Deeds one after the other with all that they write to the console, from any kernel, where no
text is taken whose bytes end inside a character.
-/
inductive Shown : Kernel → List Write → List Deed → Kernel → Prop where
  | nil {kernel} : Shown kernel [] [] kernel
  | cons {kernel deed middle writes deeds after} (step : kernel.Step deed middle)
    (between : deed.takenText?.isSome = true → ¬Utf8.EndsInside kernel.console.bytes)
    (rest : Shown middle writes deeds after)
    : Shown kernel (kernel.writes deed ++ writes) (deed :: deeds) after

variable {config : Config} {writes : List Write} {deeds : List Deed} {kernel after other : Kernel}
  {deed : Deed}

-----------------------------------------------------------------------------------------
-- What a deed does to the console
-----------------------------------------------------------------------------------------

/-- A deed that does not take the console adds to it what it writes, by cases on the deed. -/
theorem Run.step_console (run : Run config deeds kernel) (step : kernel.Step deed after)
    (keeps : deed.takenText? = none)
    : after.console.bytes = kernel.console.bytes ++ (kernel.writes deed).flatMap Write.bytes := by
  have configured : kernel.config.traceMask = config.traceMask :=
    congrArg Config.traceMask run.tidy.configured
  have traced : Run (config.tracing config.traceMask) deeds kernel := run
  have bytes {kernel : Kernel} : kernel.console.bytes = kernel.console.writes.reverse.flatten := rfl
  have still (same : after.console = kernel.console) (silent : kernel.writes deed = [])
      : after.console.bytes = kernel.console.bytes ++ (kernel.writes deed).flatMap Write.bytes := by
    rw [same, silent, List.flatMap_nil, List.append_nil]
  cases step with
  | register program => exact still (register_console ..) rfl
  | spawn done => exact still (start_console done) rfl
  | wait done => exact still (reap_console done) rfl
  | install done => exact still (install_console done) rfl
  | takeConsole => cases keeps
  | call runs done =>
      rw [bytes, traced.call_writes runs done, List.flatten_append, ← List.flatMap_def,
        Kernel.writes, configured]
      rfl
  | finish runs =>
      rw [bytes, traced.finish_writes, List.flatten_append, ← List.flatMap_def, Kernel.writes,
        configured]
      rfl
  | @callBlocked pid c => exact still rfl rfl
  | _ => exact still rfl rfl

-----------------------------------------------------------------------------------------
-- The same deeds without the takes
-----------------------------------------------------------------------------------------

theorem eq_of_silenced (same : other.silenced = kernel.silenced)
    (configured : other.config = kernel.config)
    : other = { kernel with console := other.console } := by
  obtain ⟨config, programs, processes, contexts, files, console⟩ := other
  obtain ⟨-, rfl, rfl, rfl, rfl, -⟩ := Kernel.mk.inj same
  cases configured
  rfl

theorem alike_of_pair {α : Type} {left right : α × Kernel} {reply : α}
    (same : quiet left = quiet right) (done : right = (reply, after))
    : ∃ next, left = (reply, next) ∧ next.silenced = after.silenced := by
  subst done
  obtain ⟨given, next⟩ := left
  obtain ⟨rfl, silent⟩ := Prod.mk.inj same
  exact ⟨next, rfl, silent⟩

/-- What does not take the console can be done to a kernel with another console too, by cases on the
deed.
-/
theorem Step.elsewhere (step : kernel.Step deed after) (keeps : deed.takenText? = none)
    (same : other.silenced = kernel.silenced)
    : ∃ next, other.Step deed next ∧ next.silenced = after.silenced := by
  have alive {pid : Pid} (runs : kernel.processes.isRunning pid = true)
      : other.processes.isRunning pid = true := by
    rw [← silenced_processes, same]
    exact runs
  have calls (pid : Pid) (c : Syscall)
      : (other.call pid c).map quiet = (kernel.call pid c).map quiet := by
    rw [← call_silenced, same, call_silenced]
  have reaps (pid : Pid)
      : (other.reap .host pid).map quiet = (kernel.reap .host pid).map quiet := by
    rw [← reap_silenced, same, reap_silenced]
  cases step with
  | register program =>
      refine ⟨_, .register program, ?_⟩
      rw [← register_silenced, same, register_silenced]
  | @spawn program argv _ _ done =>
      have alike
          : quiet (other.start .host program argv) = quiet (kernel.start .host program argv) := by
        rw [← start_silenced, same, start_silenced]
      obtain ⟨next, again, silent⟩ := alike_of_pair alike done
      exact ⟨next, .spawn again, silent⟩
  | @wait pid _ _ done =>
      rcases alike_of_quiet (reaps pid) with ⟨-, blocked⟩ | ⟨_, next, _, again, replied, silent⟩
      · rw [done] at blocked
        cases blocked
      · rw [done] at replied
        cases replied
        exact ⟨next, .wait again, silent⟩
  | @waitBlocked pid blocked =>
      have none := reaps pid
      rw [blocked] at none
      exact ⟨other, .waitBlocked (Option.map_eq_none_iff.mp none), same⟩
  | @install name bytes _ _ done =>
      have alike : quiet (other.install name bytes) = quiet (kernel.install name bytes) := by
        rw [← install_silenced, same, install_silenced]
      obtain ⟨next, again, silent⟩ := alike_of_pair alike done
      exact ⟨next, .install again, silent⟩
  | takeJournal =>
      have events : other.processes.events = kernel.processes.events := by
        rw [← silenced_processes, same]
        rfl
      rw [← events]
      exact ⟨_, .takeJournal, congrArg clearJournal same⟩
  | takeConsole => cases keeps
  | @call pid c _ _ runs done =>
      rcases alike_of_quiet (calls pid c) with ⟨-, blocked⟩ | ⟨_, next, _, again, replied, silent⟩
      · rw [done] at blocked
        cases blocked
      · rw [done] at replied
        cases replied
        exact ⟨next, .call (alive runs) again, silent⟩
  | @callBlocked pid c runs blocked =>
      have none := calls pid c
      rw [blocked] at none
      exact ⟨other, .callBlocked (alive runs) (Option.map_eq_none_iff.mp none), same⟩
  | @finish pid ending runs =>
      refine ⟨_, .finish (alive runs), ?_⟩
      rw [← finish_silenced, same, finish_silenced]

-----------------------------------------------------------------------------------------
-- All that was written
-----------------------------------------------------------------------------------------

/-- A run and the same run without the takes, in which everything written is still on the console:
the parts taken, and then what is left.
-/
structure Untaken (config : Config) (writes : List Write) (deeds : List Deed) (kernel : Kernel)
    (parts : List Bytes) (untaken : Kernel) : Prop where
  run : Run config (withoutTakes deeds) untaken
  same : untaken = { kernel with console := untaken.console }
  all : untaken.console.bytes = writes.flatMap Write.bytes
  split : untaken.console.bytes = parts.flatten ++ kernel.console.bytes
  texts : takenTexts deeds = parts.map Utf8.decodeLossy
  between : ∀ part ∈ parts, ¬Utf8.EndsInside part

theorem writes_console (kernel : Kernel) (console : Console) (deed : Deed)
    : ({ kernel with console }).writes deed = kernel.writes deed := by
  cases deed <;> rfl

namespace Untaken

variable {parts : List Bytes} {untaken : Kernel}

/-- What does not take the console is done to both kernels and adds the same to both consoles. -/
theorem keep (alike : Untaken config writes deeds kernel parts untaken)
    (run : Run config deeds kernel) (step : kernel.Step deed after) (keeps : deed.takenText? = none)
    : ∃ next, Untaken config (writes ++ kernel.writes deed) (deeds ++ [deed]) after parts next := by
  have silent : untaken.silenced = kernel.silenced := by
    rw [alike.same]
    rfl
  obtain ⟨next, again, same⟩ := step.elsewhere keeps silent
  have ran : Run config (withoutTakes (deeds ++ [deed])) next := by
    rw [withoutTakes_snoc, if_pos keeps]
    exact alike.run.step again
  have added : next.console.bytes
      = untaken.console.bytes ++ (kernel.writes deed).flatMap Write.bytes := by
    rw [alike.run.step_console again keeps, alike.same, writes_console]
  refine ⟨next, ran, ?_, ?_, ?_, ?_, alike.between⟩
  · exact eq_of_silenced same (ran.tidy.configured.trans (run.step step).tidy.configured.symm)
  · rw [added, alike.all, List.flatMap_append]
  · rw [added, alike.split, run.step_console step keeps, List.append_assoc]
  · rw [takenTexts_snoc, keeps, Option.toList_none, List.append_nil, alike.texts]

/-- What is taken is one more part, and nothing is left. -/
theorem take (alike : Untaken config writes deeds kernel parts untaken)
    (between : ¬Utf8.EndsInside kernel.console.bytes)
    : Untaken config writes (deeds ++ [.takeConsole kernel.console.text]) kernel.clearConsole
        (parts ++ [kernel.console.bytes]) untaken where
  run := by
    rw [withoutTakes_snoc]
    simpa [Deed.takenText?] using alike.run
  same := alike.same
  all := alike.all
  split := by
    rw [alike.split]
    simp [Kernel.clearConsole, Console.bytes, Console.empty]
  texts := by
    rw [takenTexts_snoc, alike.texts, List.map_append]
    rfl
  between := by
    intro part member
    rcases List.mem_append.mp member with before | last
    · exact alike.between part before
    · exact List.mem_singleton.mp last ▸ between

end Untaken

/-- Every run goes on in the same way without the takes, by induction on what comes. -/
theorem Shown.untaken {before : List Write} {made : List Deed} {parts : List Bytes}
    {untaken : Kernel} (shown : Shown kernel writes deeds after) (run : Run config made kernel)
    (alike : Untaken config before made kernel parts untaken)
    : ∃ parts last, Untaken config (before ++ writes) (made ++ deeds) after parts last := by
  induction shown generalizing before made parts untaken with
  | nil => exact ⟨parts, untaken, by simpa using alike⟩
  | @cons kernel deed middle writes deeds after step between rest ih =>
      obtain ⟨parts, next, again⟩
          : ∃ parts next,
              Untaken config (before ++ kernel.writes deed) (made ++ [deed]) middle parts next := by
        cases taken : deed.takenText? with
        | none => exact ⟨parts, alike.keep run step taken⟩
        | some text =>
            cases step with
            | takeConsole =>
                refine ⟨parts ++ [kernel.console.bytes], untaken, ?_⟩
                change Untaken config (before ++ []) _ _ _ _
                rw [List.append_nil]
                exact alike.take (between rfl)
            | _ => cases taken
      simpa using ih (run.step step) again

/-- The host can take what the console shows at any points that are not inside a character. The
texts that it has taken and the one that is left are then together the text of all that was
written, by whomever and in order, and this is what the console shows at the end of the same run
without the takes.
-/
theorem Shown.takes_lossless (shown : Shown (.boot config) writes deeds kernel)
    : String.join (takenTexts deeds) ++ kernel.console.text
        = Utf8.decodeLossy (writes.flatMap Write.bytes)
      ∧ ∃ untaken,
          Run config (withoutTakes deeds) untaken
          ∧ untaken = { kernel with console := untaken.console }
          ∧ untaken.console.bytes = writes.flatMap Write.bytes
          ∧ untaken.console.text = String.join (takenTexts deeds) ++ kernel.console.text := by
  have booted : Untaken config [] [] (.boot config) [] (.boot config) :=
    ⟨.boot, rfl, rfl, rfl, rfl, List.forall_mem_nil _⟩
  obtain ⟨parts, untaken, alike⟩ := shown.untaken .boot booted
  rw [List.nil_append, List.nil_append] at alike
  have whole
      : String.join (takenTexts deeds) ++ kernel.console.text
        = Utf8.decodeLossy (writes.flatMap Write.bytes) := by
    rw [← alike.all, alike.split, Utf8.decodeLossy_flatten alike.between, alike.texts]
    rfl
  refine ⟨whole, untaken, alike.run, alike.same, alike.all, ?_⟩
  rw [whole, ← alike.all]
  rfl

/-- The deeds of two processes that write parts of characters, with two takes between them and a
traced exit.
-/
def tornDeeds : List Deed :=
  [
    .register "p",
    .spawn "p" [] (.ok (.ofNat 1)),
    .spawn "p" [] (.ok (.ofNat 2)),
    .call (.ofNat 1) (.write ⟨1⟩ [0x41]) (some (.ok 1)),
    .takeConsole "A",
    .call (.ofNat 1) (.write ⟨1⟩ [0xe2]) (some (.ok 1)),
    .call (.ofNat 2) (.write ⟨1⟩ [0xff, 0xc3]) (some (.ok 2)),
    .call (.ofNat 1) (.write ⟨1⟩ [0xa9]) (some (.ok 1)),
    .takeConsole "��é",
    .finish (.ofNat 1) (.exit 0),
    .call (.ofNat 2) (.write ⟨1⟩ [0xe2, 0x82]) (some (.ok 2))
  ]

/-- The character that two processes have written is taken whole, and the one that is not complete
at the end is shown as one mark, with the takes and without them.
-/
theorem takes_lossless_torn
    : ∃ writes kernel untaken,
        Shown (.boot (Config.standard.tracing SyscallKind.exit.maskBit)) writes tornDeeds kernel
        ∧ takenTexts tornDeeds = ["A", "��é"]
        ∧ kernel.console.text = "p(1): syscall exit (0) -> ()\n�"
        ∧ Run (Config.standard.tracing SyscallKind.exit.maskBit) (withoutTakes tornDeeds) untaken
        ∧ untaken.console.text = "A��ép(1): syscall exit (0) -> ()\n�" := by
  obtain ⟨writes, kernel, shown, left⟩
      : ∃ writes kernel,
          Shown (.boot (Config.standard.tracing SyscallKind.exit.maskBit)) writes tornDeeds kernel
          ∧ kernel.console.text = "p(1): syscall exit (0) -> ()\n�" :=
    ⟨_, _,
      .cons (.register "p") nofun <| .cons (.spawn rfl) nofun <| .cons (.spawn rfl) nofun
      <| .cons (.call rfl rfl) nofun <| .cons .takeConsole (fun _ => by decide)
      <| .cons (.call rfl rfl) nofun <| .cons (.call rfl rfl) nofun <| .cons (.call rfl rfl) nofun
      <| .cons .takeConsole (fun _ => by decide) <| .cons (.finish rfl) nofun
      <| .cons (.call rfl rfl) nofun .nil,
      rfl⟩
  obtain ⟨-, untaken, run, -, -, text⟩ := shown.takes_lossless
  refine ⟨writes, kernel, untaken, shown, rfl, left, run, ?_⟩
  rw [text, left]
  rfl

end Kernel

end KernelConformance
