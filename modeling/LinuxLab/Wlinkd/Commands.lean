import LinuxLab.Wlinkd.TcpServer

/-!
# Commands and the pieces they arrive in

`client_handler` takes what one `recv` gave it as one command: it cuts the bytes at
the first line break and forgets what stands after it.  TCP keeps the bytes of a
client in order but not where its lines end, so `recv` may cut the stream anywhere.
The commands executed are those of the lines when every piece is one line, up to the
line that ends the connection.  For plain lines no other cut does that.
-/

namespace LinuxLab
namespace Wlinkd
namespace TcpServer

open Lib

/-- The command loop on the pieces that `recv` gives it, until it leaves the loop.
`status n` is the text of `wlan_core_build_status` at the `n`-th piece. -/
def serve (g : TcpShared) (status : Nat → CString) : Nat → List CString → Client → Client
  | _, [], c => c
  | n, req :: rest, c =>
    match clientStep g c (.command (some req) (status n)) with
    | none => c
    | some c' => serve g status (n + 1) rest c'

/-- The commands that leave the command loop. -/
def leaves (text : CString) : Bool :=
  decide (text = "monitor".toList ∨ text = "exit".toList)

/-- The commands executed on the pieces. -/
def executed : List CString → List CString
  | [] => []
  | req :: rest =>
    if leaves (commandText req) then [commandText req] else commandText req :: executed rest

theorem leaves_eq_false {text : CString} (hmonitor : text ≠ "monitor".toList)
    (hexit : text ≠ "exit".toList) : leaves text = false :=
  decide_eq_false (not_or.mpr ⟨hmonitor, hexit⟩)

theorem executed_cons_ne_nil (req : CString) (rest : List CString) :
    executed (req :: rest) ≠ [] := by
  rw [executed]
  split <;> exact nofun

theorem executed_head {req req' : CString} {rest rest' : List CString}
    (h : executed (req :: rest) = executed (req' :: rest')) :
    commandText req = commandText req' := by
  rw [executed, executed] at h
  split at h <;> split at h <;> exact (List.cons.inj h).1

/-- What is sent for a command. -/
def reply (status text : CString) : CString :=
  if text = "status".toList then status
  else if text = "monitor".toList then "Now monitoring (press Enter to stop)\n".toList
  else if text = "exit".toList then "Bye\n\x00".toList
  else snprintf (tcpServerBuf * 2) ("unknown cmmand: ".toList ++ text ++ ['\n'])

/-! ## What a client is sent -/

theorem handleCommand_sent (g : TcpShared) (req status : CString) (c : Client) :
    (handleCommand g req status c).sent = c.sent ++ [reply status (commandText req)] := by
  unfold handleCommand reply
  by_cases hstatus : commandText req = "status".toList
  · rw [if_pos hstatus, if_pos hstatus]
  · by_cases hmonitor : commandText req = "monitor".toList
    · rw [if_neg hstatus, if_neg hstatus, if_pos hmonitor, if_pos hmonitor]
    · by_cases hexit : commandText req = "exit".toList
      · rw [if_neg hstatus, if_neg hstatus, if_neg hmonitor, if_neg hmonitor, if_pos hexit,
          if_pos hexit]
      · rw [if_neg hstatus, if_neg hstatus, if_neg hmonitor, if_neg hmonitor, if_neg hexit,
          if_neg hexit]

theorem handleCommand_state (g : TcpShared) (req status : CString) {c : Client}
    (hc : c.state = .command) :
    (handleCommand g req status c).state = .command ↔ leaves (commandText req) = false := by
  unfold handleCommand
  by_cases hstatus : commandText req = "status".toList
  · rw [if_pos hstatus, hstatus]
    exact iff_of_true hc (by decide)
  · by_cases hmonitor : commandText req = "monitor".toList
    · rw [if_neg hstatus, if_pos hmonitor, hmonitor]
      exact iff_of_false nofun (by decide)
    · by_cases hexit : commandText req = "exit".toList
      · rw [if_neg hstatus, if_neg hmonitor, if_pos hexit, hexit]
        exact iff_of_false nofun (by decide)
      · rw [if_neg hstatus, if_neg hmonitor, if_neg hexit]
        exact iff_of_true hc (leaves_eq_false hmonitor hexit)

theorem serve_cons (g : TcpShared) (status : Nat → CString) (n : Nat) (req : CString)
    (rest : List CString) {c : Client} (hc : c.state = .command) :
    serve g status n (req :: rest) c =
      serve g status (n + 1) rest (handleCommand g req (status n) c) := by
  have hstep : clientStep g c (.command (some req) (status n)) =
      some (handleCommand g req (status n) c) := by
    unfold clientStep
    rw [hc]
  rw [serve, hstep]

/-- Out of the command loop no piece is taken as a command. -/
theorem serve_left (g : TcpShared) (status : Nat → CString) (n : Nat) (pieces : List CString)
    {c : Client} (hc : c.state ≠ .command) : serve g status n pieces c = c := by
  cases pieces with
  | nil => rfl
  | cons req rest =>
    have hstep : clientStep g c (.command (some req) (status n)) = none := by
      unfold clientStep
      split <;> simp_all
    rw [serve, hstep]

/-- The commands executed, and nothing else, decide what the client is sent. -/
theorem serve_sent (g : TcpShared) (status : Nat → CString) (n : Nat) (pieces : List CString)
    {c : Client} (hc : c.state = .command) :
    (serve g status n pieces c).sent =
      c.sent ++ (executed pieces).mapIdx (fun k text => reply (status (n + k)) text) := by
  induction pieces generalizing n c with
  | nil => exact (List.append_nil c.sent).symm
  | cons req rest ih =>
    have hstate := handleCommand_state g req (status n) hc
    have hsent := handleCommand_sent g req (status n) c
    rw [serve_cons g status n req rest hc, executed]
    by_cases hleaves : leaves (commandText req) = true
    · have hleft : (handleCommand g req (status n) c).state ≠ .command := by
        rw [Ne, hstate, hleaves]
        exact nofun
      rw [if_pos hleaves, serve_left g status (n + 1) rest hleft, hsent]
      rfl
    · have hstays := hstate.mpr (Bool.eq_false_iff.mpr hleaves)
      rw [if_neg hleaves, ih (n + 1) hstays, hsent, List.mapIdx_cons, List.append_assoc]
      simp only [Nat.add_zero, Nat.add_assoc, Nat.add_comm 1, List.singleton_append]

/-! ## Lines and cuts -/

/-- A line that a client sends: its text, which is not `monitor`, and the line feed. -/
structure CommandLine (line : CString) : Prop where
  ends : line.getLast? = some '\n'
  noBreak : '\n' ∉ line.dropLast
  short : line.dropLast.length < tcpServerBuf - 1
  notMonitor : commandText line ≠ "monitor".toList

/-- The pieces are what successive calls of `recv` may give for the stream: a call gives
at least one byte and at most `sizeof(req) - 1`. -/
structure Cut (pieces : List CString) (stream : CString) : Prop where
  flatten_eq : pieces.flatten = stream
  size : ∀ piece ∈ pieces, 1 ≤ piece.length ∧ piece.length ≤ tcpServerBuf - 1

/-- Every piece is one line, up to the line `exit`.  What arrives with that line or
after it is not read any more. -/
inductive LineByLine : List CString → List CString → Prop where
  | nil : LineByLine [] []
  | line (line : CString) {pieces lines : List CString} (h : LineByLine pieces lines) :
      LineByLine (line :: pieces) (line :: lines)
  | exit {piece line : CString} (pieces lines : List CString)
      (hpiece : commandText piece = "exit".toList) (hline : commandText line = "exit".toList) :
      LineByLine (piece :: pieces) (line :: lines)

theorem executed_of_lineByLine {pieces lines : List CString} (h : LineByLine pieces lines) :
    executed pieces = executed lines := by
  induction h with
  | nil => rfl
  | line line _ ih => rw [executed, executed, ih]
  | exit pieces lines hpiece hline =>
    have hleaves : leaves "exit".toList = true := by decide
    rw [executed, executed, hpiece, hline, if_pos hleaves, if_pos hleaves]

/-! ## Plain lines

A character that can stand in a command is in a command or it is lost.  If the
commands of the pieces are those of the lines, none is lost, so each piece is its
command followed by line breaks only. -/

def inCommand (c : Char) : Bool := decide (c ≠ '\x00' ∧ c ≠ '\r' ∧ c ≠ '\n')

theorem commandText_eq (req : CString) : commandText req = req.takeWhile inCommand := rfl

/-- A plain line: a text of characters that can stand in a command, and a line break. -/
def PlainLine (line : CString) : Prop :=
  ∃ text ending, line = text ++ ending ∧ text ≠ [] ∧ (∀ c ∈ text, inCommand c = true) ∧
    (ending = ['\n'] ∨ ending = ['\r', '\n'])

theorem takeWhile_append_of_head {p : Char → Bool} {front back : CString}
    (hfront : ∀ c ∈ front, p c = true) (hback : ∀ c ∈ back.head?, p c = false) :
    (front ++ back).takeWhile p = front := by
  rw [List.takeWhile_append_of_pos hfront]
  cases back with
  | nil => exact List.append_nil front
  | cons c back => rw [List.takeWhile_cons_of_neg (by simp [hback c rfl]), List.append_nil]

/-- Line breaks followed by two texts that do not start with one. -/
theorem append_inj_of_head {p : Char → Bool} {front front' back back' : CString}
    (h : front ++ back = front' ++ back')
    (hfront : ∀ c ∈ front, p c = true) (hback : ∀ c ∈ back.head?, p c = false)
    (hfront' : ∀ c ∈ front', p c = true) (hback' : ∀ c ∈ back'.head?, p c = false) :
    front = front' ∧ back = back' := by
  have hsame : front = front' := by
    rw [← takeWhile_append_of_head hfront hback, h, takeWhile_append_of_head hfront' hback']
  subst hsame
  exact ⟨rfl, List.append_cancel_left h⟩

theorem length_commandText_le (req : CString) :
    (commandText req).length ≤ req.countP inCommand := by
  rw [commandText_eq, List.countP_eq_length_filter]
  have hsub := (List.takeWhile_sublist inCommand (l := req)).filter inCommand
  rw [List.filter_eq_self.mpr (fun c hc => List.mem_takeWhile_imp hc)] at hsub
  exact hsub.length_le

theorem length_executed_le (pieces : List CString) :
    (executed pieces).flatten.length ≤ pieces.flatten.countP inCommand := by
  induction pieces with
  | nil => exact Nat.le_refl 0
  | cons req rest ih =>
    have hreq := length_commandText_le req
    rw [executed, List.flatten_cons, List.countP_append]
    by_cases hleaves : leaves (commandText req) = true
    · rw [if_pos hleaves, List.flatten_singleton]
      omega
    · rw [if_neg hleaves, List.flatten_cons, List.length_append]
      omega

/-- A plain line, taken apart as the command loop does it. -/
theorem plainLine_spec {line : CString} (h : PlainLine line) :
    ∃ ending, line = commandText line ++ ending ∧ commandText line ≠ [] ∧
      line.countP inCommand = (commandText line).length ∧ ∀ c ∈ ending, inCommand c = false := by
  obtain ⟨text, ending, rfl, hne, htext, hending⟩ := h
  have hbreak : ∀ c ∈ ending, inCommand c = false := by
    intro c hc
    rcases hending with rfl | rfl
    · rw [List.mem_singleton.mp hc]
      rfl
    · rcases List.mem_pair.mp hc with rfl | rfl
      · rfl
      · rfl
  have hhead : ∀ c ∈ ending.head?, inCommand c = false :=
    fun c hc => hbreak c (List.mem_of_mem_head? hc)
  have hcommand : commandText (text ++ ending) = text := takeWhile_append_of_head htext hhead
  rw [hcommand]
  refine ⟨ending, rfl, hne, ?_, hbreak⟩
  rw [List.countP_append, List.countP_eq_length.mpr htext,
    List.countP_eq_zero.mpr (fun c hc => by simp [hbreak c hc]), Nat.add_zero]

theorem mem_dropLast_cons {line l : CString} {lines : List CString} (h : l ∈ lines.dropLast) :
    l ∈ (line :: lines).dropLast := by
  cases lines with
  | nil => exact absurd h nofun
  | cons line' lines =>
    rw [List.dropLast_cons_cons]
    exact List.mem_cons_of_mem line h

/-- When only the last line may leave the loop, the lines lose no character. -/
theorem length_executed_lines {lines : List CString} (hplain : ∀ line ∈ lines, PlainLine line)
    (hlast : ∀ line ∈ lines.dropLast, leaves (commandText line) = false) :
    (executed lines).flatten.length = lines.flatten.countP inCommand := by
  induction lines with
  | nil => rfl
  | cons line rest ih =>
    obtain ⟨_, _, _, hcount, _⟩ := plainLine_spec (hplain line List.mem_cons_self)
    rw [executed, List.flatten_cons, List.countP_append]
    cases rest with
    | nil =>
      have hone : executed [] = [] := rfl
      rw [hone, ite_self, List.flatten_singleton, hcount]
      rfl
    | cons line' rest =>
      have hstays := hlast line (by simp)
      rw [hstays, if_neg nofun, List.flatten_cons, List.length_append, hcount,
        ih (fun l hl => hplain l (List.mem_cons_of_mem line hl))
          (fun l hl => hlast l (mem_dropLast_cons hl))]

/-- If no command executed is empty, the first piece starts with a character of its
command. -/
theorem head_flatten_of_executed {pieces : List CString}
    (h : ∀ text ∈ executed pieces, text ≠ []) :
    ∀ c ∈ pieces.flatten.head?, inCommand c = true := by
  intro c hc
  cases pieces with
  | nil => exact absurd hc nofun
  | cons req rest =>
    have hne : commandText req ≠ [] := by
      refine h _ ?_
      rw [executed]
      split <;> exact List.mem_cons_self
    cases req with
    | nil => exact absurd rfl hne
    | cons c' req =>
      obtain rfl : c' = c := Option.some.inj hc
      by_contra hbreak
      exact hne (List.takeWhile_cons_of_neg hbreak)

theorem executed_ne_nil {lines : List CString} (hplain : ∀ line ∈ lines, PlainLine line) :
    ∀ text ∈ executed lines, text ≠ [] := by
  induction lines with
  | nil => exact fun text htext => absurd htext nofun
  | cons line rest ih =>
    obtain ⟨_, _, hne, _, _⟩ := plainLine_spec (hplain line List.mem_cons_self)
    intro text htext
    rw [executed] at htext
    split at htext
    · rwa [List.mem_singleton.mp htext]
    · rcases List.mem_cons.mp htext with rfl | htail
      · exact hne
      · exact ih (fun l hl => hplain l (List.mem_cons_of_mem line hl)) text htail

/-- A piece without lost characters is its command and line breaks. -/
theorem break_of_tight {req : CString}
    (h : req.countP inCommand ≤ (commandText req).length) :
    ∃ ending, req = commandText req ++ ending ∧ ∀ c ∈ ending, inCommand c = false := by
  have hsplit : req = commandText req ++ req.dropWhile inCommand :=
    List.takeWhile_append_dropWhile.symm
  refine ⟨req.dropWhile inCommand, hsplit, ?_⟩
  have hcount : req.countP inCommand =
      (commandText req).length + (req.dropWhile inCommand).countP inCommand := by
    conv_lhs => rw [hsplit]
    rw [List.countP_append, List.countP_eq_length.mpr (fun c hc => List.mem_takeWhile_imp hc)]
  have hzero : (req.dropWhile inCommand).countP inCommand = 0 := by omega
  exact fun c hc => Bool.eq_false_iff.mpr (List.countP_eq_zero.mp hzero c hc)

/-- The first piece is the first line, when the commands agree and do not end here. -/
theorem first_piece {piece line : CString} {pieces lines : List CString}
    (hflat : (piece :: pieces).flatten = (line :: lines).flatten)
    (hplain : ∀ l ∈ line :: lines, PlainLine l)
    (hlast : ∀ l ∈ lines.dropLast, leaves (commandText l) = false)
    (htext : commandText piece = commandText line) (hrest : executed pieces = executed lines) :
    piece = line ∧ pieces.flatten = lines.flatten := by
  have hplains : ∀ l ∈ lines, PlainLine l := fun l hl => hplain l (List.mem_cons_of_mem line hl)
  obtain ⟨ending, hline, _, hcount, hbreak⟩ := plainLine_spec (hplain line List.mem_cons_self)
  rw [List.flatten_cons, List.flatten_cons] at hflat
  -- The pieces after the first hold at least the characters of the lines after the first.
  have htight : piece.countP inCommand ≤ (commandText piece).length := by
    have htotal : piece.countP inCommand + pieces.flatten.countP inCommand =
        line.countP inCommand + lines.flatten.countP inCommand := by
      rw [← List.countP_append, ← List.countP_append, hflat]
    have hpieces := length_executed_le pieces
    rw [hrest, length_executed_lines hplains hlast] at hpieces
    rw [htext]
    omega
  obtain ⟨ending', hpiece, hbreak'⟩ := break_of_tight htight
  rw [htext] at hpiece
  have htails : ending' ++ pieces.flatten = ending ++ lines.flatten := by
    rw [hpiece, hline, List.append_assoc, List.append_assoc] at hflat
    rw [← hline] at hflat
    exact List.append_cancel_left hflat
  have hhead : ∀ c ∈ lines.flatten.head?, inCommand c = true :=
    head_flatten_of_executed (executed_ne_nil hplains)
  have hhead' : ∀ c ∈ pieces.flatten.head?, inCommand c = true :=
    head_flatten_of_executed (by rw [hrest]; exact executed_ne_nil hplains)
  obtain ⟨hending, hflatten⟩ := append_inj_of_head (p := fun c => !inCommand c) htails
    (fun c hc => by rw [hbreak' c hc]; rfl) (fun c hc => by rw [hhead' c hc]; rfl)
    (fun c hc => by rw [hbreak c hc]; rfl) (fun c hc => by rw [hhead c hc]; rfl)
  exact ⟨by rw [hpiece, hending, ← hline], hflatten⟩

/-- Plain lines that were all executed were received line by line. -/
theorem lineByLine_of_executed {pieces lines : List CString}
    (hflat : pieces.flatten = lines.flatten) (hplain : ∀ line ∈ lines, PlainLine line)
    (hmonitor : ∀ line ∈ lines, commandText line ≠ "monitor".toList)
    (hlast : ∀ line ∈ lines.dropLast, commandText line ≠ "exit".toList)
    (h : executed pieces = executed lines) : LineByLine pieces lines := by
  induction lines generalizing pieces with
  | nil =>
    cases pieces with
    | nil => exact .nil
    | cons piece pieces => exact absurd h (executed_cons_ne_nil piece pieces)
  | cons line lines ih =>
    cases pieces with
    | nil => exact absurd h.symm (executed_cons_ne_nil line lines)
    | cons piece pieces =>
      have htext : commandText piece = commandText line := executed_head h
      by_cases hexit : commandText line = "exit".toList
      · exact .exit pieces lines (htext.trans hexit) hexit
      have hstays := leaves_eq_false (hmonitor line List.mem_cons_self) hexit
      have hrest : executed pieces = executed lines := by
        rw [executed, executed, htext, hstays, if_neg nofun, if_neg nofun] at h
        exact (List.cons.inj h).2
      have hmonitors := fun l hl => hmonitor l (List.mem_cons_of_mem line hl)
      have hlasts : ∀ l ∈ lines.dropLast, commandText l ≠ "exit".toList :=
        fun l hl => hlast l (mem_dropLast_cons hl)
      have hstay : ∀ l ∈ lines.dropLast, leaves (commandText l) = false :=
        fun l hl => leaves_eq_false (hmonitors l (List.dropLast_subset lines hl)) (hlasts l hl)
      obtain ⟨rfl, hflatten⟩ := first_piece hflat hplain hstay htext hrest
      exact .line piece (ih hflatten (fun l hl => hplain l (List.mem_cons_of_mem piece hl))
        hmonitors hlasts hrest)

/-- Received line by line, the lines are executed and answered as when each arrives in
its own `recv`.  For plain lines, of which only the last may be `exit`, no other cut of
the stream gives the same commands. -/
theorem commands_line_by_line {lines pieces : List CString}
    (hlines : ∀ line ∈ lines, CommandLine line) (hcut : Cut pieces lines.flatten) :
    (LineByLine pieces lines → executed pieces = executed lines ∧
      ∀ g status c, c.state = .command →
        (serve g status 0 pieces c).sent = (serve g status 0 lines c).sent) ∧
    ((∀ line ∈ lines, PlainLine line) →
      (∀ line ∈ lines.dropLast, commandText line ≠ "exit".toList) →
      (executed pieces = executed lines ↔ LineByLine pieces lines)) := by
  refine ⟨fun h => ⟨executed_of_lineByLine h, ?_⟩, fun hplain hlast => ⟨?_, executed_of_lineByLine⟩⟩
  · intro g status c hc
    rw [serve_sent g status 0 pieces hc, serve_sent g status 0 lines hc, executed_of_lineByLine h]
  · exact lineByLine_of_executed hcut.flatten_eq hplain
      (fun line hline => (hlines line hline).notMonitor) hlast

/-- A client in the command loop that was sent nothing so far. -/
def newClient : Client := { state := .command, past := [], sent := [] }

def sessionLines : List CString :=
  ["status\n".toList, "who is there\r\n".toList, "exit\n".toList]

theorem commandLine_sessionLines : ∀ line ∈ sessionLines, CommandLine line := by
  intro line hline
  exact ⟨by revert line; decide, by revert line; decide, by revert line; decide,
    by revert line; decide⟩

/-- The line feed after `exit` may come late: nobody reads it. -/
theorem commands_line_by_line_session :
    executed ["status\n".toList, "who is there\r\n".toList, "exit".toList, "\n".toList] =
      executed sessionLines :=
  ((commands_line_by_line commandLine_sessionLines ⟨by decide, by decide⟩).1
    (.line _ (.line _ (.exit _ _ (by decide) (by decide))))).1

/-- Three lines that arrive together are one command: the two others are never executed,
and the client is sent one reply instead of three. -/
theorem not_commands_line_by_line_together :
    (∀ line ∈ sessionLines, CommandLine line) ∧
    Cut [sessionLines.flatten] sessionLines.flatten ∧
    executed [sessionLines.flatten] = ["status".toList] ∧
    executed sessionLines = ["status".toList, "who is there".toList, "exit".toList] ∧
    ∀ g status, ((serve g status 0 [sessionLines.flatten] newClient).sent.length,
      (serve g status 0 sessionLines newClient).sent.length) = (1, 3) := by
  have htogether : executed [sessionLines.flatten] = ["status".toList] := by decide
  have hlines : executed sessionLines =
      ["status".toList, "who is there".toList, "exit".toList] := by decide
  refine ⟨commandLine_sessionLines, ⟨by decide, by decide⟩, htogether, hlines, ?_⟩
  intro g status
  rw [serve_sent g status 0 _ rfl, serve_sent g status 0 _ rfl, htogether, hlines]
  rfl

end TcpServer
end Wlinkd
end LinuxLab
