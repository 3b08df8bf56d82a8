import Hal9000.Common.Machine

/-!
# The command interpreter

A line of the shell or of the script module that starts with `/` is cut into tokens, the first
names a command and the others are its parameters. The number of tokens is checked by assertions
only.
-/

namespace Hal9000

def cmdMaxArgs : Nat := 10

/-- `COMMAND_DEFINITION`; the function stands for itself under the name of the command. -/
structure CommandDefinition where
  commandName : String
  minParameters : Nat
  maxParameters : Nat
  deriving DecidableEq

def commands : List CommandDefinition :=
  [⟨"reset",0,0⟩,⟨"shutdown",0,0⟩,
    ⟨"log",1,1⟩,⟨"loglevel",1,1⟩,⟨"logcomp",1,1⟩,
    ⟨"cls",0,0⟩,
    ⟨"vol",0,0⟩,⟨"less",1,2⟩,⟨"fwrite",1,4⟩,⟨"stat",1,1⟩,⟨"mkdir",1,1⟩,⟨"touch",1,1⟩,⟨"ls",1,2⟩,
    ⟨"swap",1,2⟩,
    ⟨"cpu",0,0⟩,⟨"int",0,0⟩,⟨"yield",0,0⟩,⟨"timer",1,3⟩,
    ⟨"threads",0,0⟩,⟨"run",1,2⟩,
    ⟨"processes",0,0⟩,⟨"procstat",1,1⟩,⟨"procstart",1,1⟩,⟨"proctest",1,1⟩,
    ⟨"sysinfo",0,0⟩,⟨"getidle",0,0⟩,⟨"setidle",1,1⟩,
    ⟨"rdmsr",1,1⟩,⟨"wrmsr",2,2⟩,⟨"chkad",0,0⟩,⟨"spawn",2,2⟩,⟨"cpuid",0,2⟩,⟨"ipi",1,3⟩,
    ⟨"networks",0,0⟩,⟨"netrecv",0,1⟩,⟨"netsend",0,0⟩,⟨"netstatus",3,3⟩,
    ⟨"tests",0,0⟩,⟨"perf",0,0⟩,
    ⟨"recursion",0,0⟩,⟨"rtcfail",0,0⟩,⟨"rangefail",0,0⟩,⟨"bitecookie",0,0⟩,
    ⟨"help",0,0⟩]

/-- What a line makes the interpreter do. The help that answers an unknown name is not a call
of the command. -/
inductive CmdEvent
  | called (command : CommandDefinition) (noOfParameters : Nat)
      (parameters : List (Option (List Char)))
  | wrongParameters (command : CommandDefinition) (noOfParameters : Nat)
  | printedHelp
  | warnedNoCommand
  | printedLine (line : List Char)
  deriving DecidableEq

/-- `stricmp` returns 0. -/
def stricmpEqual (left right : List Char) : Bool :=
  left.map Char.toLower == right.map Char.toLower

/-- The loop over the commands that are left. It stops at the first call, and goes on when the
number of parameters is wrong. -/
def execCmdLoop (pCommand : List Char) (noOfParameters : Nat)
    (parameters : List (Option (List Char))) : List CommandDefinition → Bool → List CmdEvent × Bool
  | [],bFoundCommand => ([],bFoundCommand)
  | command :: rest,bFoundCommand =>
    if stricmpEqual pCommand command.commandName.toList then
      if command.minParameters ≤ noOfParameters ∧ noOfParameters ≤ command.maxParameters then
        ([.called command noOfParameters parameters],true)
      else
        let (events,found) := execCmdLoop pCommand noOfParameters parameters rest true
        (.wrongParameters command noOfParameters :: events,found)
    else execCmdLoop pCommand noOfParameters parameters rest bFoundCommand

/-- `ExecCmd`: what it returns and what it does; no result when an assertion fails. -/
def execCmd (argc : Nat) (argv : List (Option (List Char))) : Option (Bool × List CmdEvent) := do
  assert (decide (1 ≤ argc ∧ argc ≤ cmdMaxArgs))
  let pCommand ← argv.head?.join
  if stricmpEqual pCommand "exit".toList then some (true,[])
  else
    let (events,bFoundCommand) := execCmdLoop pCommand (argc - 1) argv.tail commands false
    some (false,if bFoundCommand then events else events ++ [.printedHelp])

/-- The tokens that `strtok_s` returns one after another, before it returns `NULL`. -/
def strtokTokens (line : List Char) : List (List Char) :=
  (line.splitOnP (· == ' ')).filter (· ≠ [])

/-- The loop of `_CmdExecLine` over the tokens that are left. -/
def storeArgs : List (List Char) → Nat → List (Option (List Char)) →
    Option (Nat × List (Option (List Char)))
  | [],argIndex,pCmdArgs => some (argIndex,pCmdArgs)
  | pCurArg :: rest,argIndex,pCmdArgs => do
    assert (decide (argIndex < cmdMaxArgs))
    storeArgs rest (argIndex + 1) (pCmdArgs.set argIndex (some pCurArg))

/-- `_CmdExecLine`; the line is what stands before its terminator. -/
def cmdExecLine (commandLine : List Char) (length : Nat) : Option (Bool × List CmdEvent) :=
  match commandLine with
  | '/' :: rest =>
    if length ≤ 1 then some (false,[.warnedNoCommand])
    else do
      let (argIndex,pCmdArgs) ← storeArgs (strtokTokens rest) 0 (List.replicate cmdMaxArgs none)
      execCmd argIndex pCmdArgs
  | _ => some (false,[.printedLine commandLine])

/-- The line asks for the command with these parameters. -/
def CallsFor (commandLine : List Char) (command : CommandDefinition)
    (parameters : List (List Char)) : Prop :=
  ∃ rest name, commandLine = '/' :: rest ∧ strtokTokens rest = name :: parameters ∧
    stricmpEqual name command.commandName.toList ∧
    command.minParameters ≤ parameters.length ∧ parameters.length ≤ command.maxParameters

/-- The parameters as the command function gets them. -/
def passedParameters (parameters : List (List Char)) : List (Option (List Char)) :=
  parameters.map some ++ List.replicate (cmdMaxArgs - 1 - parameters.length) none

/-- What the interpreter has to do with a line. -/
structure ExecutesLine (commandLine : List Char) (length : Nat) : Prop where
  returns : ∃ result, cmdExecLine commandLine length = some result
  calls : ∀ result, cmdExecLine commandLine length = some result →
    ∀ command ∈ commands, ∀ parameters,
      CmdEvent.called command parameters.length (passedParameters parameters) ∈ result.2 ↔
        CallsFor commandLine command parameters
  callsOnly : ∀ result, cmdExecLine commandLine length = some result →
    ∀ command noOfParameters arguments,
      CmdEvent.called command noOfParameters arguments ∈ result.2 → command ∈ commands ∧
        ∃ parameters : List (List Char), noOfParameters = parameters.length ∧
          arguments = passedParameters parameters

section Exec

variable {pCommand : List Char} {noOfParameters : Nat} {parameters : List (Option (List Char))}

/-- Of commands with different names the loop calls the one that is named, when the number of the
parameters is within its bounds. -/
theorem called_mem_execCmdLoop {table : List CommandDefinition} {bFoundCommand : Bool}
    (hnames : (table.map (fun c => c.commandName.toList.map Char.toLower)).Nodup)
    (command : CommandDefinition) (n : Nat) (arguments : List (Option (List Char))) :
    CmdEvent.called command n arguments ∈
      (execCmdLoop pCommand noOfParameters parameters table bFoundCommand).1 ↔
      command ∈ table ∧ stricmpEqual pCommand command.commandName.toList ∧
        command.minParameters ≤ noOfParameters ∧ noOfParameters ≤ command.maxParameters ∧
        n = noOfParameters ∧ arguments = parameters := by
  induction table generalizing bFoundCommand with
  | nil => simp [execCmdLoop]
  | cons head rest ih =>
    rw [List.map_cons,List.nodup_cons] at hnames
    rw [execCmdLoop]
    by_cases hname : stricmpEqual pCommand head.commandName.toList
    · have hrest : ∀ other ∈ rest, ¬ stricmpEqual pCommand other.commandName.toList := by
        intro other hother hsame
        apply hnames.1
        rw [stricmpEqual,beq_iff_eq] at hname hsame
        rw [← hname,hsame]
        exact List.mem_map_of_mem hother
      rw [if_pos hname]
      by_cases hbounds : head.minParameters ≤ noOfParameters ∧ noOfParameters ≤ head.maxParameters
      · rw [if_pos hbounds,List.mem_singleton,CmdEvent.called.injEq]
        constructor
        · intro ⟨hcommand,hn,harguments⟩
          rw [hcommand]
          exact ⟨List.mem_cons_self,hname,hbounds.1,hbounds.2,hn,harguments⟩
        · intro ⟨hmem,hsame,_,_,hn,harguments⟩
          rcases List.mem_cons.mp hmem with hcommand | hmem
          · exact ⟨hcommand,hn,harguments⟩
          · exact absurd hsame (hrest command hmem)
      · rw [if_neg hbounds,List.mem_cons,ih hnames.2]
        constructor
        · rintro (hwrong | ⟨hmem,hsame,_⟩)
          · cases hwrong
          · exact absurd hsame (hrest command hmem)
        · intro ⟨hmem,hsame,hmin,hmax,_⟩
          rcases List.mem_cons.mp hmem with rfl | hmem
          · exact absurd ⟨hmin,hmax⟩ hbounds
          · exact absurd hsame (hrest command hmem)
    · rw [if_neg hname,ih hnames.2]
      constructor
      · intro ⟨hmem,hrest⟩
        exact ⟨List.mem_cons_of_mem _ hmem,hrest⟩
      · intro ⟨hmem,hsame,hrest⟩
        rcases List.mem_cons.mp hmem with rfl | hmem
        · exact absurd hsame hname
        · exact ⟨hmem,hsame,hrest⟩

theorem commands_names_nodup :
    (commands.map (fun c => c.commandName.toList.map Char.toLower)).Nodup := by
  decide +kernel

theorem commands_not_exit : ∀ command ∈ commands,
    "exit".toList.map Char.toLower ≠ command.commandName.toList.map Char.toLower := by
  decide +kernel

theorem execCmd_called {argc : Nat} {name : List Char} (hargc : 1 ≤ argc ∧ argc ≤ cmdMaxArgs) :
    ∃ bExit events, execCmd argc (some name :: parameters) = some (bExit,events) ∧
      ∀ command n arguments, CmdEvent.called command n arguments ∈ events ↔
        command ∈ commands ∧ stricmpEqual name command.commandName.toList ∧
          command.minParameters ≤ argc - 1 ∧ argc - 1 ≤ command.maxParameters ∧
          n = argc - 1 ∧ arguments = parameters := by
  by_cases hexit : stricmpEqual name "exit".toList
  · refine ⟨true,[],?_,?_⟩
    · rw [execCmd,decide_eq_true hargc]
      exact if_pos hexit
    · intro command n arguments
      refine iff_of_false List.not_mem_nil ?_
      intro ⟨hmem,hsame,_⟩
      rw [stricmpEqual,beq_iff_eq] at hexit hsame
      exact commands_not_exit command hmem (hexit.symm.trans hsame)
  · have hcalled := @called_mem_execCmdLoop name (argc - 1) parameters commands false
      commands_names_nodup
    refine ⟨false,if (execCmdLoop name (argc - 1) parameters commands false).2 then
      (execCmdLoop name (argc - 1) parameters commands false).1 else
      (execCmdLoop name (argc - 1) parameters commands false).1 ++ [.printedHelp],?_,?_⟩
    · rw [execCmd,decide_eq_true hargc]
      exact if_neg hexit
    · intro command n arguments
      rw [← hcalled]
      split
      · rfl
      · simp

end Exec

theorem storeArgs_fits (tokens : List (List Char)) (argIndex : Nat)
    (pCmdArgs : List (Option (List Char))) (hlength : pCmdArgs.length = cmdMaxArgs)
    (hfits : argIndex + tokens.length ≤ cmdMaxArgs) :
    storeArgs tokens argIndex pCmdArgs = some (argIndex + tokens.length,
      pCmdArgs.take argIndex ++ tokens.map some ++ pCmdArgs.drop (argIndex + tokens.length)) := by
  induction tokens generalizing argIndex pCmdArgs with
  | nil => simp [storeArgs]
  | cons token rest ih =>
    rw [List.length_cons] at hfits
    have hlt : argIndex < pCmdArgs.length := by omega
    rw [storeArgs,decide_eq_true (show argIndex < cmdMaxArgs by omega)]
    have hrest := ih (argIndex + 1) (pCmdArgs.set argIndex (some token))
      (by rw [List.length_set]; exact hlength) (by omega)
    have htake : (pCmdArgs.set argIndex (some token)).take (argIndex + 1) =
        pCmdArgs.take argIndex ++ [some token] := by
      rw [List.take_add_one,List.take_set_of_le (Nat.le_refl argIndex)]
      simp [hlt]
    rw [htake,List.drop_set_of_lt (by omega)] at hrest
    rw [List.length_cons,List.map_cons,show argIndex + (rest.length + 1) =
      argIndex + 1 + rest.length by omega]
    refine hrest.trans ?_
    simp

theorem storeArgs_overflow (tokens : List (List Char)) (argIndex : Nat)
    (pCmdArgs : List (Option (List Char))) (hindex : argIndex ≤ cmdMaxArgs)
    (hmany : cmdMaxArgs < argIndex + tokens.length) :
    storeArgs tokens argIndex pCmdArgs = none := by
  induction tokens generalizing argIndex pCmdArgs with
  | nil =>
    rw [List.length_nil] at hmany
    omega
  | cons token rest ih =>
    rw [List.length_cons] at hmany
    rw [storeArgs]
    by_cases hlt : argIndex < cmdMaxArgs
    · rw [decide_eq_true hlt]
      exact ih (argIndex + 1) _ hlt (by omega)
    · rw [decide_eq_false hlt]
      rfl

theorem passedParameters_injective {left right : List (List Char)}
    (hlength : left.length = right.length)
    (h : passedParameters left = passedParameters right) : left = right := by
  have hmap := (List.append_inj h (by simp [hlength])).1
  exact (List.map_injective_iff.mpr (Option.some_injective _)) hmap

theorem cmdExecLine_tokens {rest name : List Char} {length : Nat} {parameters : List (List Char)}
    (hlength : 1 < length) (htokens : strtokTokens rest = name :: parameters)
    (hfits : parameters.length + 1 ≤ cmdMaxArgs) :
    cmdExecLine ('/' :: rest) length =
      execCmd (parameters.length + 1) (some name :: passedParameters parameters) := by
  have hstored := storeArgs_fits (name :: parameters) 0 (List.replicate cmdMaxArgs none)
    List.length_replicate (by rw [List.length_cons]; omega)
  rw [List.length_cons,Nat.zero_add] at hstored
  rw [cmdExecLine,if_neg (by omega),htokens,hstored]
  rw [List.take_zero,List.nil_append,List.map_cons,List.drop_replicate,
    show cmdMaxArgs - (parameters.length + 1) = cmdMaxArgs - 1 - parameters.length by omega]
  rfl

theorem callsFor_tokens {rest name : List Char} {parameters arguments : List (List Char)}
    {command : CommandDefinition} (htokens : strtokTokens rest = name :: arguments) :
    CallsFor ('/' :: rest) command parameters ↔ parameters = arguments ∧
      stricmpEqual name command.commandName.toList ∧
      command.minParameters ≤ parameters.length ∧
      parameters.length ≤ command.maxParameters := by
  constructor
  · intro ⟨rest',name',hline,htokens',hname,hbounds⟩
    cases hline
    rw [htokens] at htokens'
    cases htokens'
    exact ⟨rfl,hname,hbounds⟩
  · intro ⟨hparameters,hname,hbounds⟩
    exact ⟨rest,name,rfl,hparameters ▸ htokens,hname,hbounds⟩

theorem cmdExecLine_text {commandLine : List Char} (h : commandLine.head? ≠ some '/')
    (length : Nat) : cmdExecLine commandLine length = some (false,[.printedLine commandLine]) := by
  rw [cmdExecLine]
  intro rest hline
  rw [hline] at h
  exact h rfl

theorem executesLine_without_calls {commandLine : List Char} {length : Nat}
    {result : Bool × List CmdEvent} (hline : cmdExecLine commandLine length = some result)
    (hevents : ∀ command n arguments, CmdEvent.called command n arguments ∉ result.2)
    (hcalls : ∀ command ∈ commands, ∀ parameters, ¬ CallsFor commandLine command parameters) :
    ExecutesLine commandLine length := by
  constructor
  · exact ⟨result,hline⟩
  · intro result' h command hcommand parameters
    rw [hline] at h
    cases h
    exact iff_of_false (hevents _ _ _) (hcalls command hcommand parameters)
  · intro result' h command n arguments hmem
    rw [hline] at h
    cases h
    exact absurd hmem (hevents _ _ _)

theorem executesLine_tokens {rest name : List Char} {length : Nat}
    {arguments : List (List Char)} (hlength : 1 < length)
    (htokens : strtokTokens rest = name :: arguments)
    (hfits : arguments.length + 1 ≤ cmdMaxArgs) : ExecutesLine ('/' :: rest) length := by
  obtain ⟨bExit,events,hexec,hcalled⟩ := @execCmd_called (passedParameters arguments)
    (arguments.length + 1) name ⟨Nat.le_add_left _ _,hfits⟩
  rw [← cmdExecLine_tokens hlength htokens hfits] at hexec
  rw [Nat.add_sub_cancel] at hcalled
  constructor
  · exact ⟨_,hexec⟩
  · intro result h command hcommand parameters
    rw [hexec] at h
    cases h
    rw [hcalled,callsFor_tokens htokens]
    constructor
    · intro ⟨_,hname,hmin,hmax,hn,hpassed⟩
      have hparameters := passedParameters_injective hn hpassed
      exact ⟨hparameters,hname,hn ▸ hmin,hn ▸ hmax⟩
    · intro ⟨hparameters,hname,hmin,hmax⟩
      subst hparameters
      exact ⟨hcommand,hname,hmin,hmax,rfl,rfl⟩
  · intro result h command n passed hmem
    rw [hexec] at h
    cases h
    obtain ⟨hcommand,_,_,_,hn,hpassed⟩ := (hcalled command n passed).mp hmem
    exact ⟨hcommand,arguments,hn,hpassed⟩

/-- A line is executed as it has to be exactly when it is no command line, or it is too short by
its length and asks for no command, or it has between one and ten tokens behind the `/`. -/
theorem executesLine_iff (commandLine : List Char) (length : Nat) :
    ExecutesLine commandLine length ↔
      commandLine.head? ≠ some '/' ∨
      (length ≤ 1 ∧
        ∀ command ∈ commands, ∀ parameters, ¬ CallsFor commandLine command parameters) ∨
      (1 < length ∧ 1 ≤ (strtokTokens commandLine.tail).length ∧
        (strtokTokens commandLine.tail).length ≤ cmdMaxArgs) := by
  by_cases hslash : commandLine.head? = some '/'
  · obtain ⟨rest,rfl⟩ : ∃ rest, commandLine = '/' :: rest := by
      cases commandLine with
      | nil => cases hslash
      | cons c rest =>
        cases hslash
        exact ⟨rest,rfl⟩
    rw [List.tail_cons]
    by_cases hshort : length ≤ 1
    · have hline : cmdExecLine ('/' :: rest) length = some (false,[.warnedNoCommand]) :=
        if_pos hshort
      constructor
      · intro hlaw
        refine .inr (.inl ⟨hshort,fun command hcommand parameters hcalls => ?_⟩)
        have hmem := (hlaw.calls _ hline command hcommand parameters).mpr hcalls
        simp at hmem
      · rintro (hno | ⟨_,hcalls⟩ | ⟨hlong,_⟩)
        · exact absurd hslash hno
        · exact executesLine_without_calls hline (by simp) hcalls
        · omega
    · cases htokens : strtokTokens rest with
      | nil =>
        refine iff_of_false (fun hlaw => ?_) (by simp [hslash,hshort])
        obtain ⟨result,hresult⟩ := hlaw.returns
        rw [cmdExecLine,if_neg hshort,htokens] at hresult
        cases hresult
      | cons name parameters =>
        by_cases hfits : parameters.length + 1 ≤ cmdMaxArgs
        · exact iff_of_true (executesLine_tokens (by omega) htokens hfits)
            (.inr (.inr ⟨by omega,Nat.le_add_left _ _,hfits⟩))
        · refine iff_of_false (fun hlaw => ?_) ?_
          · obtain ⟨result,hresult⟩ := hlaw.returns
            rw [cmdExecLine,if_neg hshort,storeArgs_overflow _ 0 _ (Nat.zero_le _)
              (by rw [htokens,List.length_cons]; omega)] at hresult
            cases hresult
          · rintro (hno | ⟨hshort',_⟩ | ⟨_,_,hfits'⟩)
            · exact absurd hslash hno
            · exact hshort hshort'
            · exact hfits hfits'
  · refine iff_of_true ?_ (.inl hslash)
    refine executesLine_without_calls (cmdExecLine_text hslash length) (by simp) ?_
    intro command _ parameters ⟨rest,name,hline,_⟩
    rw [hline] at hslash
    exact hslash rfl

example : cmdExecLine "/LS C:\\ -R".toList 10 = some (false,[.called ⟨"ls",1,2⟩ 2
    (passedParameters ["C:\\".toList,"-R".toList])]) := by decide

/-- A command line with a space only, one with eleven tokens, and a command whose length is given
as 1 because the cursor stood behind the first character. -/
theorem executesLine_fails :
    cmdExecLine "/ ".toList 2 = none ∧
    cmdExecLine "/run a b c d e f g h i j".toList 24 = none ∧
    cmdExecLine "/cls".toList 1 = some (false,[.warnedNoCommand]) ∧
    ¬ ExecutesLine "/ ".toList 2 ∧
    ¬ ExecutesLine "/run a b c d e f g h i j".toList 24 ∧
    ¬ ExecutesLine "/cls".toList 1 := by
  have hspace : cmdExecLine "/ ".toList 2 = none := by decide
  have heleven : cmdExecLine "/run a b c d e f g h i j".toList 24 = none := by decide
  have hshort : cmdExecLine "/cls".toList 1 = some (false,[.warnedNoCommand]) := by decide
  refine ⟨hspace,heleven,hshort,fun hlaw => ?_,fun hlaw => ?_,fun hlaw => ?_⟩
  · obtain ⟨result,hresult⟩ := hlaw.returns
    rw [hspace] at hresult
    cases hresult
  · obtain ⟨result,hresult⟩ := hlaw.returns
    rw [heleven] at hresult
    cases hresult
  · have hcalls : CallsFor "/cls".toList ⟨"cls",0,0⟩ [] :=
      ⟨"cls".toList,"cls".toList,by decide,by decide,by decide,Nat.le_refl 0,Nat.le_refl 0⟩
    have hmem := (hlaw.calls _ hshort ⟨"cls",0,0⟩ (by decide) []).mpr hcalls
    revert hmem
    decide

end Hal9000
