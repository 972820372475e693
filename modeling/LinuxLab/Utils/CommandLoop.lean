import LinuxLab.Lib.Exec
import LinuxLab.Utils.SplitLine

/-!
# The command loop

`toy_loop` of `input.c`: read a line, split it and execute the builtin that its first word
names.  The builtin `mu` stores its argument in `global_message`, an array of 1024 bytes, with
`strcpy`; the other builtins leave the array alone, and what else they do is left out.  Lines
and words have any length.
-/

namespace LinuxLab
namespace CommandLoop

open Lib SplitLine

/-- `TOY_BUFFSIZE`. -/
def toyBuffsize : Nat := 1024

inductive Builtin where
  | help
  | wlan
  | mutex
  | shell
  | exit
  | elf
  | dumpState
  | mincore
  | busy
  | temp
deriving DecidableEq, Repr

/-- `builtin_str`, with `builtin_func` beside it. -/
def builtins : List (CString × Builtin) :=
  [(['h', 'e', 'l', 'p'], .help), (['w', 'l', 'a', 'n'], .wlan), (['m', 'u'], .mutex),
    (['s', 'h'], .shell), (['e', 'x', 'i', 't'], .exit), (['e', 'l', 'f'], .elf),
    (['d', 'u', 'm', 'p'], .dumpState), (['m', 'i', 'n', 'c', 'o', 'r', 'e'], .mincore),
    (['b', 'u', 's', 'y'], .busy), (['t', 'e', 'm', 'p'], .temp)]

/-- `reach` is one more than the last index at which a store to `global_message` was made,
and `saved` the argument of the last `mu`. -/
structure Cli where
  globalMessage : List Char
  reach : Nat
  saved : Option CString
  running : Bool

def start : Cli := ⟨List.replicate toyBuffsize nul, 0, none, true⟩

/-- The vector that `toy_split_line` returned. -/
structure Args where
  tokens : List Cell
  mem : List Char

/-- `args[i]`, and `none` for NULL. -/
def Args.get (args : Args) (i : Nat) : Option CString :=
  match args.tokens.getD i .undefined with
  | .token offset => some (stringAt (args.mem.drop offset))
  | .null => none
  | .undefined => none

/-- The cells of the destination after `strcpy`.  What is copied beyond them is lost. -/
def strcpy (dest : List Char) (src : CString) : List Char := (store dest 0 src).take dest.length

def toyMutex (args : Args) (s : Cli) : Cli :=
  match args.get 1 with
  | none => s
  | some text =>
    { s with
      globalMessage := strcpy s.globalMessage text
      reach := max s.reach (text.length + 1)
      saved := some text }

/-- What a builtin returns.  Those that wait or make system calls come back or do not. -/
def builtinFunc (f : Builtin) (args : Args) (comesBack : Bool) (s : Cli) : Option Int × Cli :=
  match f with
  | .mutex => (some 1, toyMutex args s)
  | .exit => (some 0, s)
  | .busy => (none, s)
  | .help | .wlan | .shell | .elf | .dumpState | .mincore | .temp =>
    (if comesBack = true then some 1 else none, s)

def toyExecute (args : Args) (comesBack : Bool) (s : Cli) : Option Int × Cli :=
  match args.get 0 with
  | none => (some 1, s)
  | some name =>
    match builtins.lookup name with
    | none => (some 1, s)
    | some f => builtinFunc f args comesBack s

/-- What one iteration meets: the line, or `none` when `getline` fails and `toy_read_line`
exits; the allocator; and whether the builtin comes back. -/
structure Input where
  line : Option (List Char)
  heap : Heap
  comesBack : Bool

/-- The loop goes on when the builtin has returned a status other than 0. -/
def afterExecute (result : Option Int × Cli) : Cli :=
  { result.2 with running := result.1.any (· ≠ 0) }

def iteration (s : Cli) (i : Input) : Cli :=
  match i.line with
  | none => { s with running := false }
  | some line =>
    match toySplitLine i.heap line with
    | .returned tokens mem => afterExecute (toyExecute ⟨tokens, mem⟩ i.comesBack s)
    | .exited _ | .outside | .unfinished => { s with running := false }

/-- One iteration of `toy_loop`. -/
def step (s : Cli) (i : Input) : Option Cli :=
  if s.running = true then some (iteration s i) else none

/-- No store was made outside of `global_message`, and it holds the last argument and NUL. -/
def Holds (s : Cli) : Prop :=
  s.reach ≤ toyBuffsize ∧
    ∀ text, s.saved = some text → s.globalMessage.take (text.length + 1) = text ++ [nul]

/-- The line, which is split, says `mu` and an argument. -/
def IsMutex (i : Input) (text : CString) : Prop :=
  ∃ line tokens mem rest, i.line = some line ∧
    toySplitLine i.heap line = .returned tokens mem ∧
    IsRuns (inToken toyTokDelim) (stringAt line) (['m', 'u'] :: text :: rest)

/-- The argument of `mu` has at most 1023 characters. -/
def Short (_ : Cli) (i : Input) : Prop := ∀ text, IsMutex i text → text.length < toyBuffsize

/-! ## The arguments -/

theorem args_get {tokens : List Cell} {mem : List Char} {words : List CString}
    (h : IsVector tokens mem words) {i : Nat} (hi : i ≤ words.length) :
    (Args.mk tokens mem).get i = words[i]? := by
  obtain ⟨offsets, htokens, rfl⟩ := h
  rw [List.length_map] at hi
  have hcell : tokens[i]? = (offsets.map Cell.token ++ [Cell.null])[i]? := by
    rw [← htokens, List.getElem?_take_of_lt (by omega)]
  unfold Args.get
  rw [List.getD_eq_getElem?_getD, hcell]
  rcases Nat.lt_or_eq_of_le hi with hlt | rfl
  · rw [List.getElem?_append_left (by rwa [List.length_map]), List.getElem?_map,
      List.getElem?_map, List.getElem?_eq_getElem hlt]
    rfl
  · have hend : (offsets.map (fun q => stringAt (mem.drop q)))[offsets.length]? = none :=
      List.getElem?_eq_none (by rw [List.length_map])
    rw [List.getElem?_append_right (by rw [List.length_map]), List.length_map, Nat.sub_self, hend]
    rfl

theorem eq_mu_of_lookup {name : CString} (h : builtins.lookup name = some .mutex) :
    name = ['m', 'u'] := by
  obtain ⟨front, back, hsplit, -⟩ := List.lookup_eq_some_iff.mp h
  have hmem : (name, Builtin.mutex) ∈ builtins := by
    rw [hsplit]
    exact List.mem_append_right _ List.mem_cons_self
  simpa [builtins] using hmem

theorem toyExecute_mutex {tokens : List Cell} {mem : List Char} {text : CString}
    {rest : List CString} (h : IsVector tokens mem (['m', 'u'] :: text :: rest)) (comesBack : Bool)
    (s : Cli) :
    toyExecute ⟨tokens, mem⟩ comesBack s =
      (some 1, { s with
        globalMessage := strcpy s.globalMessage text
        reach := max s.reach (text.length + 1)
        saved := some text }) := by
  have hname : (Args.mk tokens mem).get 0 = some ['m', 'u'] := args_get h (Nat.zero_le _)
  have htext : (Args.mk tokens mem).get 1 = some text := args_get h (by simp)
  unfold toyExecute
  rw [hname]
  show (some 1, toyMutex ⟨tokens, mem⟩ s) = _
  rw [toyMutex, htext]

theorem toyExecute_other {tokens : List Cell} {mem : List Char} {words : List CString}
    (h : IsVector tokens mem words) (hwords : ∀ text rest, words ≠ ['m', 'u'] :: text :: rest)
    (comesBack : Bool) (s : Cli) : (toyExecute ⟨tokens, mem⟩ comesBack s).2 = s := by
  have hname := args_get h (Nat.zero_le _)
  unfold toyExecute
  rw [hname]
  cases words with
  | nil => rfl
  | cons name rest =>
    show (match builtins.lookup name with
      | none => (some 1, s)
      | some f => builtinFunc f ⟨tokens, mem⟩ comesBack s).2 = s
    cases hf : builtins.lookup name with
    | none => rfl
    | some f =>
      cases f with
      | mutex =>
        cases eq_mu_of_lookup hf
        cases rest with
        | nil =>
          have hnull := args_get h (Nat.le_refl 1)
          show toyMutex ⟨tokens, mem⟩ s = s
          rw [toyMutex, hnull]
          rfl
        | cons text rest => exact absurd rfl (hwords text rest)
      | _ => rfl

/-! ## One iteration -/

theorem IsMutex.eq {i : Input} {text other : CString} (h : IsMutex i text)
    (hother : IsMutex i other) : other = text := by
  obtain ⟨line, -, -, rest, hline, -, hruns⟩ := h
  obtain ⟨line', -, -, rest', hline', -, hruns'⟩ := hother
  cases hline.symm.trans hline'
  have hwords := hruns'.eq_runs.trans hruns.eq_runs.symm
  cases hwords
  rfl

/-- A line that says `mu` and an argument stores the argument. -/
theorem iteration_of_isMutex {i : Input} {text : CString} (h : IsMutex i text) (s : Cli) :
    iteration s i =
      ⟨strcpy s.globalMessage text, max s.reach (text.length + 1), some text, true⟩ := by
  obtain ⟨line, tokens, mem, rest, hline, hsplit, hruns⟩ := h
  have hvector : IsVector tokens mem (['m', 'u'] :: text :: rest) := by
    rcases splits_toySplitLine i.heap hruns with ⟨tokens', mem', hsplit', hvector⟩ | ⟨_, hexit, -⟩
    · cases hsplit.symm.trans hsplit'
      exact hvector
    · cases hsplit.symm.trans hexit
  unfold iteration
  rw [hline]
  dsimp only
  rw [hsplit]
  dsimp only
  rw [toyExecute_mutex hvector]
  rfl

/-- Any other line leaves the message alone. -/
theorem iteration_of_not_isMutex {i : Input} (h : ∀ text, ¬IsMutex i text) (s : Cli) :
    ∃ running, iteration s i = { s with running := running } := by
  unfold iteration
  cases hline : i.line with
  | none => exact ⟨false, rfl⟩
  | some line =>
    have hwords := isRuns_runs (inToken toyTokDelim) (stringAt line)
    dsimp only
    rcases splits_toySplitLine i.heap hwords with
      ⟨tokens, mem, hsplit, hvector⟩ | ⟨bytes, hexit, -⟩
    · have hother : ∀ text rest, runs (inToken toyTokDelim) (stringAt line) ≠
          ['m', 'u'] :: text :: rest := by
        intro text rest heq
        exact h text ⟨line, tokens, mem, rest, hline, hsplit, heq ▸ hwords⟩
      rw [hsplit]
      dsimp only [afterExecute]
      rw [toyExecute_other hvector hother]
      exact ⟨_, rfl⟩
    · rw [hexit]
      exact ⟨false, rfl⟩

/-- What an iteration can do to the message. -/
theorem step_spec {s t : Cli} {i : Input} (h : step s i = some t) :
    (∃ text, IsMutex i text ∧
      t = ⟨strcpy s.globalMessage text, max s.reach (text.length + 1), some text, true⟩) ∨
    ((∀ text, ¬IsMutex i text) ∧ ∃ running, t = { s with running := running }) := by
  obtain ⟨-, rfl⟩ := Option.ite_some_none_eq_some.mp h
  by_cases hmutex : ∃ text, IsMutex i text
  · obtain ⟨text, hmutex⟩ := hmutex
    exact .inl ⟨text, hmutex, iteration_of_isMutex hmutex s⟩
  · have hnone := not_exists.mp hmutex
    exact .inr ⟨hnone, iteration_of_not_isMutex hnone s⟩

theorem length_strcpy (dest : List Char) (src : CString) :
    (strcpy dest src).length = dest.length := by
  rw [strcpy, store_zero, List.length_take, List.length_append, List.length_cons, List.length_drop]
  omega

theorem take_strcpy {dest : List Char} {src : CString} (h : src.length < dest.length) :
    (strcpy dest src).take (src.length + 1) = src ++ [nul] := by
  have hlength : (src ++ [nul]).length = src.length + 1 := List.length_append
  rw [strcpy, List.take_take, Nat.min_eq_left h, store_zero, List.append_cons]
  exact List.take_left' hlength

theorem length_step {s t : Cli} {i : Input} (hs : s.globalMessage.length = toyBuffsize)
    (h : step s i = some t) : t.globalMessage.length = toyBuffsize := by
  rcases step_spec h with ⟨text, -, rfl⟩ | ⟨-, running, rfl⟩
  · exact (length_strcpy _ _).trans hs
  · exact hs

theorem holds_step_iff {s t : Cli} {i : Input} (hlength : s.globalMessage.length = toyBuffsize)
    (hs : Holds s) (h : step s i = some t) : Holds t ↔ Short s i := by
  rcases step_spec h with ⟨text, hmutex, rfl⟩ | ⟨hnone, running, rfl⟩
  · constructor
    · rintro ⟨hreach, -⟩ other hother
      rw [hmutex.eq hother]
      exact (Nat.max_le.mp hreach).2
    · intro hshort
      have hfits := hshort text hmutex
      refine ⟨Nat.max_le.mpr ⟨hs.1, hfits⟩, ?_⟩
      rintro other ⟨⟩
      exact take_strcpy (hlength ▸ hfits)
  · exact iff_of_true hs (fun text hmutex => absurd hmutex (hnone text))

/-- In every state of a run the message is the last argument and no store was outside of its
array, exactly when no `mu` has an argument of more than 1023 characters. -/
theorem message_fits_iff {inputs : List Input} {t : Cli}
    (hrun : exec step start inputs = some t) :
    Everywhere step Holds start inputs ↔ Along step Short start inputs := by
  have hstart : start.globalMessage.length = toyBuffsize := List.length_replicate
  have hholds : Holds start := ⟨Nat.zero_le _, nofun⟩
  exact everywhere_iff_along (fun _ _ _ _ hs h => length_step hs h)
    (fun _ _ _ _ hlength hs h => holds_step_iff hlength hs h) hstart hholds hrun

/-! ## A line of the form mu argument -/

/-- An allocator that grants whatever an object may have. -/
def ample : Heap := ⟨fun bytes => decide (bytes ≤ 9223372036854775807), fun _ => of_decide_eq_true⟩

/-- What `getline` returns when `mu` and the text are entered. -/
def mutexLine (text : CString) : List Char := 'm' :: 'u' :: ' ' :: (text ++ ['\n'])

theorem runs_mutexLine {text : CString} (hne : text ≠ [])
    (htext : ∀ c ∈ text, inToken toyTokDelim c = true) :
    IsRuns (inToken toyTokDelim) (mutexLine text) [['m', 'u'], text] := by
  have hlast : IsRuns (inToken toyTokDelim) ['\n'] [] := .gap (List.forall_mem_singleton.mpr rfl)
  have hrest : IsRuns (inToken toyTokDelim) ([' '] ++ (text ++ ['\n'])) [text] := by
    apply IsRuns.run (List.forall_mem_singleton.mpr rfl) hne htext ?_ hlast
    rintro c ⟨⟩
    rfl
  show IsRuns _ ([] ++ (['m', 'u'] ++ ([' '] ++ (text ++ ['\n'])))) _
  apply IsRuns.run (List.forall_mem_nil _) (List.cons_ne_nil _ _) (List.all_eq_true.mp rfl) ?_ hrest
  rintro c ⟨⟩
  rfl

theorem isMutex_mutexLine {text : CString} (hne : text ≠ [])
    (htext : ∀ c ∈ text, inToken toyTokDelim c = true) (hnul : nul ∉ text) :
    IsMutex ⟨some (mutexLine text), ample, true⟩ text := by
  have hline : stringAt (mutexLine text) = mutexLine text := by
    apply stringAt_of_notMem
    simp only [mutexLine, List.mem_cons, List.mem_append, not_or]
    exact ⟨by decide, by decide, by decide, hnul, by decide, List.not_mem_nil⟩
  have hwords := runs_mutexLine hne htext
  rw [← hline] at hwords
  rcases splits_toySplitLine ample hwords with
    ⟨tokens, mem, hsplit, -⟩ | ⟨bytes, -, hrefused, hbytes⟩
  · exact ⟨_, tokens, mem, [], rfl, hsplit, hwords⟩
  · have hlarge : ¬bytes ≤ 9223372036854775807 := of_decide_eq_false hrefused
    rw [List.length_cons, List.length_singleton] at hbytes
    omega

/-- A message that fits. -/
theorem message_fits_hi :
    Everywhere step Holds start [⟨some (mutexLine ['h', 'i']), ample, true⟩] := by
  have hmutex : IsMutex ⟨some (mutexLine ['h', 'i']), ample, true⟩ ['h', 'i'] :=
    isMutex_mutexLine (List.cons_ne_nil _ _) (List.all_eq_true.mp rfl) (by decide)
  have hshort : Short start ⟨some (mutexLine ['h', 'i']), ample, true⟩ := by
    intro text htext
    rw [hmutex.eq htext]
    decide
  exact (message_fits_iff (exec_cons rfl rfl)).mpr (along_cons rfl hshort trivial)

/-- An argument of 1024 characters: its NUL is stored behind the array. -/
theorem message_overflows :
    ∃ t, exec step start [⟨some (mutexLine (List.replicate 1024 'a')), ample, true⟩] = some t ∧
      t.reach = 1025 ∧
      ¬Everywhere step Holds start [⟨some (mutexLine (List.replicate 1024 'a')), ample, true⟩] := by
  have hlength : (List.replicate 1024 'a').length = 1024 := List.length_replicate
  have hchar : ∀ c ∈ List.replicate 1024 'a', c = 'a' := fun c hc => List.eq_of_mem_replicate hc
  have hmutex : IsMutex ⟨some (mutexLine (List.replicate 1024 'a')), ample, true⟩
      (List.replicate 1024 'a') := by
    apply isMutex_mutexLine
    · exact List.ne_nil_of_length_eq_add_one hlength
    · intro c hc
      rw [hchar c hc]
      decide
    · intro hc
      exact absurd (hchar nul hc) (by decide)
  have hreach : max start.reach ((List.replicate 1024 'a').length + 1) = 1025 := by
    rw [hlength]
    rfl
  have hstep := congrArg some (iteration_of_isMutex hmutex start)
  refine ⟨_, exec_cons hstep rfl, hreach, fun h => ?_⟩
  have hholds := h [_] [] _ rfl (exec_cons hstep rfl)
  exact absurd (hreach ▸ hholds.1) (by decide)

end CommandLoop
end LinuxLab
