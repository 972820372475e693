import LinuxLab.Wlinkd.StaMgr

/-!
# led_watcher_thread: reading events from the socket

`led_watcher_thread` of `worker.c` after it has connected and sent `SUBSCRIBE`.  Its
input is the list of texts that the calls of `recv` return; an empty one stands for
a call that fails or finds the connection closed, after which the thread starts
over with a new connection.  Its output is the list of texts written to the LED
device, which is taken to open.

A stream socket may cut the bytes of the daemon anywhere.  The thread looks at the
start of each piece only, so an event is written exactly if a piece starts with it
and has its whole word.
-/

namespace LinuxLab
namespace Core
namespace LedWatcher

open Lib Wlinkd

/-- The test of the reply.  Only the bytes that were received are new in the buffer;
`stale` is what it held before. -/
def subscribed (stale first : CString) : Bool :=
  first ≠ [] && strncmpEq (first ++ stale.drop first.length) "OK".toList 2

def isEvent (buf : CString) : Bool :=
  strncmpEq buf "sta_join".toList 8 || strncmpEq buf "sta_leave".toList 9 ||
    strncmpEq buf "traffic".toList 7

def command (buf : CString) : Option CString :=
  if isEvent buf then some (buf.takeWhile (fun c => c ≠ '\n' ∧ c ≠ '\x00')) else none

/-- The loop after the reply. -/
def eventLoop : List CString → List CString
  | [] => []
  | buf :: rest => if buf = [] then [] else (command buf).toList ++ eventLoop rest

/-- `led_watcher_thread` on one connection. -/
def ledWatcherThread (stale : CString) : List CString → List CString
  | [] => []
  | first :: rest => if subscribed stale first then eventLoop rest else []

def okReply : CString := "OK\n".toList

def lines (events : List StaEvent) : CString := events.flatMap StaEvent.line

/-- The texts that `recv` can return for a stream. -/
structure Cut (chunks : List CString) (stream : CString) : Prop where
  joined : chunks.flatten = stream
  sizes : ∀ c ∈ chunks, c ≠ [] ∧ c.length ≤ 63

/-- Every event starts a piece that has its whole word, and the rest of its line comes
before the next event does. -/
inductive Aligned : List CString → List StaEvent → Prop where
  | nil : Aligned [] []
  | cons (e : StaEvent) {chunk : CString} (tail : List CString) {rest : List CString}
      {events : List StaEvent} (hline : chunk ++ tail.flatten = e.line)
      (hword : e.text.length ≤ chunk.length)
      (h : Aligned rest events) : Aligned (chunk :: (tail ++ rest)) (e :: events)

/-- The reply passes the test and is cut off from the events, and the events are
aligned. -/
def Framed (stale : CString) (chunks : List CString) (events : List StaEvent) : Prop :=
  ∃ first reply rest, chunks = first :: (reply ++ rest) ∧ subscribed stale first = true ∧
    first ++ reply.flatten = okReply ∧ Aligned rest events

/-! ## Words in the stream -/

/-- What is left of a line of the stream after its first bytes. -/
def Rest (t : CString) : Prop := ∃ c, c ≠ [] ∧ (c ++ t = okReply ∨ ∃ e : StaEvent, c ++ t = e.line)

theorem rest_nil : Rest [] := ⟨okReply, by decide, .inl (List.append_nil _)⟩

theorem rest_of_append {c t : CString} (h : Rest (c ++ t)) : Rest t := by
  obtain ⟨b, hb, hline⟩ := h
  rw [← List.append_assoc] at hline
  exact ⟨b ++ c, by simp [hb], hline⟩

theorem isEvent_iff {buf : CString} : isEvent buf = true ↔ ∃ e : StaEvent, e.text <+: buf := by
  rw [isEvent, Bool.or_eq_true, Bool.or_eq_true]
  constructor
  · rintro ((h | h) | h)
    · exact ⟨.staJoin, strncmpEq_length_iff.mp h⟩
    · exact ⟨.staLeave, strncmpEq_length_iff.mp h⟩
    · exact ⟨.traffic, strncmpEq_length_iff.mp h⟩
  · rintro ⟨e, he⟩
    cases e with
    | staJoin => exact .inl (.inl (strncmpEq_length_iff.mpr he))
    | staLeave => exact .inl (.inr (strncmpEq_length_iff.mpr he))
    | traffic => exact .inr (strncmpEq_length_iff.mpr he)

theorem take_eq_take_of_prefix {w t u : CString} (h : w <+: t ++ u) :
    t.take w.length = w.take t.length := by
  obtain ⟨v, hv⟩ := h
  calc t.take w.length
      = ((t ++ u).take t.length).take w.length := by rw [List.take_left]
    _ = ((t ++ u).take w.length).take t.length := by
        rw [List.take_take, List.take_take, Nat.min_comm]
    _ = w.take t.length := by rw [← hv, List.take_left]

theorem text_differs_in_reply (e : StaEvent) : ∀ j < okReply.length, 0 < j →
    (okReply.drop j).take e.text.length ≠ e.text.take (okReply.drop j).length := by
  cases e <;> decide

theorem text_differs_in_line (e e' : StaEvent) : ∀ j < e'.line.length, 0 < j →
    (e'.line.drop j).take e.text.length ≠ e.text.take (e'.line.drop j).length := by
  cases e <;> cases e' <;> decide

/-- No word starts inside a line: in what is left of a line, each word meets a
different character. -/
theorem not_text_prefix_rest {t u : CString} (ht : Rest t) (hne : t ≠ []) (e : StaEvent) :
    ¬e.text <+: t ++ u := by
  intro hprefix
  obtain ⟨c, hc, hline⟩ := ht
  have hpos : 0 < c.length := List.length_pos_iff.mpr hc
  have hlen : 0 < t.length := List.length_pos_iff.mpr hne
  have htake := take_eq_take_of_prefix hprefix
  have hdrop : (c ++ t).drop c.length = t := List.drop_left
  rcases hline with hline | ⟨e', hline⟩
  · rw [hline] at hdrop
    refine text_differs_in_reply e c.length ?_ hpos (by rw [hdrop, htake])
    rw [← hline, List.length_append]
    omega
  · rw [hline] at hdrop
    refine text_differs_in_line e e' c.length ?_ hpos (by rw [hdrop, htake])
    rw [← hline, List.length_append]
    omega

theorem command_eq_none {t u c : CString} (ht : Rest t) (hne : t ≠ []) (hc : c <+: t ++ u) :
    command c = none := by
  rw [command, if_neg]
  intro hevent
  obtain ⟨e, he⟩ := isEvent_iff.mp hevent
  exact not_text_prefix_rest ht hne e (he.trans hc)

theorem text_eq_of_prefix {e e' : StaEvent} (h : e'.text <+: e.text) : e' = e := by
  have htake := take_eq_take_of_prefix (w := e'.text) (t := e.text) (u := [])
    (by rwa [List.append_nil])
  revert htake
  cases e <;> cases e' <;> decide

theorem command_eq_none_of_short {e : StaEvent} {c : CString} (hc : c <+: e.text)
    (hshort : c.length < e.text.length) : command c = none := by
  rw [command, if_neg]
  intro hevent
  obtain ⟨e', he'⟩ := isEvent_iff.mp hevent
  obtain rfl := text_eq_of_prefix (he'.trans hc)
  have := he'.length_le
  omega

theorem command_eq_some {e : StaEvent} {c u : CString} (hc : c <+: e.line ++ u)
    (hlong : e.text.length ≤ c.length) : command c = some e.text := by
  have htext : e.text <+: c := by
    refine List.prefix_of_prefix_length_le ?_ hc hlong
    exact ⟨'\n' :: u, by simp [StaEvent.line]⟩
  obtain ⟨v, rfl⟩ := htext
  rw [command, if_pos (isEvent_iff.mpr ⟨e, List.prefix_append _ _⟩)]
  have hplain : ∀ x ∈ e.text, decide (x ≠ '\n' ∧ x ≠ '\x00') = true :=
    List.all_eq_true.mp (by cases e <;> rfl)
  have hv : v <+: '\n' :: u := by
    rw [StaEvent.line, List.append_assoc] at hc
    exact (List.prefix_append_right_inj _).mp hc
  rw [List.takeWhile_append_of_pos hplain]
  rcases List.prefix_cons_iff.mp hv with rfl | ⟨v', rfl, -⟩
  · simp
  · simp

/-! ## The stream in pieces -/

theorem eventLoop_cons {c : CString} (hc : c ≠ []) (rest : List CString) :
    eventLoop (c :: rest) = (command c).toList ++ eventLoop rest := by
  rw [eventLoop, if_neg hc]

/-- What is left of the stream when its first bytes are gone: the rest of a line, and
whole lines, fewer than before. -/
theorem lines_split {events : List StaEvent} {b u : CString} (h : lines events = b ++ u)
    (hb : b ≠ []) :
    ∃ t left, Rest t ∧ u = t ++ lines left ∧ left.length < events.length := by
  induction events generalizing b with
  | nil =>
    rw [lines, List.flatMap_nil, eq_comm, List.append_eq_nil_iff] at h
    exact absurd h.1 hb
  | cons e events ih =>
    have hcons : b ++ u = e.line ++ lines events := h.symm
    rcases List.append_eq_append_iff.mp hcons with ⟨t, hline, hu⟩ | ⟨b', hb', hlines⟩
    · exact ⟨t, events, ⟨b, hb, .inr ⟨e, hline.symm⟩⟩, hu, by simp⟩
    · by_cases hnil : b' = []
      · subst hnil
        exact ⟨[], events, rest_nil, hlines.symm, by simp⟩
      · obtain ⟨t, left, ht, hu, hlt⟩ := ih hlines hnil
        exact ⟨t, left, ht, hu, by rw [List.length_cons]; omega⟩

/-- What waits in the socket of a subscriber that has read its reply: the rest of a line,
and whole lines. -/
def Unread (stream : CString) : Prop :=
  ∃ t events, Rest t ∧ stream = t ++ lines events

theorem unread_of_append {c u t : CString} {events : List StaEvent}
    (h : c ++ u = t ++ lines events) (hrest : ∀ a, t = c ++ a → Rest a) : Unread u := by
  rcases List.append_eq_append_iff.mp h with ⟨a, ht, hu⟩ | ⟨b, -, hlines⟩
  · exact ⟨a, events, hrest a ht, hu⟩
  · by_cases hb : b = []
    · subst hb
      exact ⟨[], events, rest_nil, hlines.symm⟩
    · obtain ⟨t', left, ht', hu, -⟩ := lines_split hlines hb
      exact ⟨t', left, ht', hu⟩

theorem unread_drop {stream : CString} (h : Unread stream) (n : Nat) : Unread (stream.drop n) := by
  obtain ⟨t, events, ht, rfl⟩ := h
  exact unread_of_append (List.take_append_drop n _) (fun a ha => rest_of_append (ha ▸ ht))

theorem unread_reply {n : Nat} (hn : n ≠ 0) (events : List StaEvent) :
    Unread ((okReply ++ lines events).drop n) := by
  refine unread_of_append (List.take_append_drop n _) (fun a ha => ⟨_, ?_, .inl ha.symm⟩)
  rw [Ne, List.take_eq_nil_iff, not_or]
  exact ⟨hn, nofun⟩

theorem unread_push {stream : CString} (h : Unread stream) (e : StaEvent) :
    Unread (stream ++ e.line) := by
  obtain ⟨t, events, ht, rfl⟩ := h
  refine ⟨t, events ++ [e], ht, ?_⟩
  rw [lines, lines, List.flatMap_append, List.flatMap_singleton, List.append_assoc]

/-- A command that the watcher takes from the socket is an event that stands there. -/
theorem command_unread {stream c text : CString} (h : Unread stream) (hc : c <+: stream)
    (hcommand : command c = some text) :
    ∃ e : StaEvent, text = e.text ∧ e.text <+: stream := by
  obtain ⟨t, events, ht, rfl⟩ := h
  by_cases hne : t = []
  · subst hne
    cases events with
    | nil =>
      rw [List.prefix_nil.mp hc] at hcommand
      exact absurd hcommand nofun
    | cons e events =>
      have hcons : [] ++ lines (e :: events) = e.line ++ lines events := rfl
      have htext : e.text <+: e.line ++ lines events :=
        (List.prefix_append e.text _).trans (List.prefix_append _ _)
      rw [hcons] at hc ⊢
      by_cases hshort : c.length < e.text.length
      · have hprefix := List.prefix_of_prefix_length_le hc htext (Nat.le_of_lt hshort)
        rw [command_eq_none_of_short hprefix hshort] at hcommand
        exact absurd hcommand nofun
      · rw [command_eq_some hc (Nat.le_of_not_lt hshort)] at hcommand
        exact ⟨e, (Option.some.inj hcommand).symm, htext⟩
  · rw [command_eq_none ht hne hc] at hcommand
    exact absurd hcommand nofun

/-- The pieces `cs` start with the rest of a line, `t`, and go on with `events`.  No
more is written than there are events, and no less only if every event is aligned. -/
def Bounded (cs : List CString) (t : CString) (events : List StaEvent) : Prop :=
  (eventLoop cs).length ≤ events.length ∧
    ((eventLoop cs).length = events.length →
      ∃ pre rest, cs = pre ++ rest ∧ pre.flatten = t ∧ Aligned rest events)

theorem bounded_of_lt {cs : List CString} {t : CString} {events : List StaEvent}
    (h : (eventLoop cs).length < events.length) : Bounded cs t events :=
  ⟨Nat.le_of_lt h, fun heq => absurd heq (Nat.ne_of_lt h)⟩

theorem bounded_inside {c t a : CString} {cs : List CString} {events : List StaEvent}
    (hc : c ≠ []) (ht : Rest t) (hta : t = c ++ a) (h : Bounded cs a events) :
    Bounded (c :: cs) t events := by
  have hne : t ≠ [] := by
    rw [hta]
    simp [hc]
  have hnone : command c = none := command_eq_none (u := []) ht hne (by simp [hta])
  rw [Bounded, eventLoop_cons hc, hnone, Option.toList_none, List.nil_append]
  refine ⟨h.1, fun heq => ?_⟩
  obtain ⟨pre, rest, rfl, hpre, haligned⟩ := h.2 heq
  exact ⟨c :: pre, rest, rfl, by rw [List.flatten_cons, hpre, hta], haligned⟩

theorem bounded_start {c a : CString} {cs : List CString} {e : StaEvent}
    {events : List StaEvent} (hc : c ≠ []) (hline : e.line = c ++ a) (h : Bounded cs a events) :
    Bounded (c :: cs) [] (e :: events) := by
  have hprefix : c <+: e.line := ⟨a, hline.symm⟩
  by_cases hshort : c.length < e.text.length
  · have htext : c <+: e.text :=
      List.prefix_of_prefix_length_le hprefix (List.prefix_append _ _) (Nat.le_of_lt hshort)
    refine bounded_of_lt ?_
    rw [eventLoop_cons hc, command_eq_none_of_short htext hshort, Option.toList_none,
      List.nil_append, List.length_cons]
    have := h.1
    omega
  · have hsome : command c = some e.text :=
      command_eq_some (u := []) (by rwa [List.append_nil]) (by omega)
    rw [Bounded, eventLoop_cons hc, hsome]
    refine ⟨Nat.succ_le_succ h.1, fun heq => ?_⟩
    obtain ⟨pre, rest, rfl, hpre, haligned⟩ := h.2 (Nat.succ.inj heq)
    exact ⟨[], c :: (pre ++ rest), rfl, rfl,
      .cons e pre (by rw [hpre, hline]) (by omega) haligned⟩

theorem length_command_le (c : CString) : (command c).toList.length ≤ 1 := by
  cases command c <;> simp

theorem bounded_of_joined {cs : List CString} (hne : ∀ c ∈ cs, c ≠ []) {t : CString}
    {events : List StaEvent} (ht : Rest t) (hjoin : cs.flatten = t ++ lines events) :
    Bounded cs t events := by
  -- On the pieces, over every rest of a line that they may start with.
  induction cs generalizing t events with
  | nil =>
    obtain ⟨rfl, hlines⟩ := List.append_eq_nil_iff.mp hjoin.symm
    cases events with
    | nil => exact ⟨Nat.le_refl 0, fun _ => ⟨[], [], rfl, rfl, .nil⟩⟩
    | cons e events => cases e <;> simp [lines, StaEvent.line] at hlines
  | cons c cs ih =>
    have hc : c ≠ [] := hne c List.mem_cons_self
    have hcs : ∀ c ∈ cs, c ≠ [] := fun c' hc' => hne c' (List.mem_cons_of_mem _ hc')
    rw [List.flatten_cons] at hjoin
    rcases List.append_eq_append_iff.mp hjoin with ⟨a, hta, hrest⟩ | ⟨b, hcb, hlines⟩
    · exact bounded_inside hc ht hta (ih hcs (rest_of_append (hta ▸ ht)) hrest)
    · by_cases hb : b = []
      · subst hb
        refine bounded_inside (a := []) hc ht (by rw [hcb]; simp) (ih hcs rest_nil hlines.symm)
      by_cases htne : t = []
      · -- The piece starts with an event, and may go past its line.
        subst htne
        cases events with
        | nil => exact absurd (List.append_eq_nil_iff.mp hlines.symm).1 hb
        | cons e events =>
          have hcons : c ++ cs.flatten = e.line ++ lines events := hjoin
          rcases List.append_eq_append_iff.mp hcons with ⟨a, hline, hrest⟩ | ⟨b', hcb', hlines'⟩
          · exact bounded_start hc hline (ih hcs ⟨c, hc, .inr ⟨e, hline.symm⟩⟩ hrest)
          · by_cases hb' : b' = []
            · subst hb'
              exact bounded_start (a := []) hc (by rw [hcb']; simp) (ih hcs rest_nil hlines'.symm)
            · obtain ⟨t', left, ht', hrest, hlt⟩ := lines_split hlines' hb'
              refine bounded_of_lt ?_
              rw [eventLoop_cons hc, List.length_append, List.length_cons]
              have := (ih hcs ht' hrest).1
              have := length_command_le c
              omega
      · -- The piece goes past the end of its line, and what it takes of the next is lost.
        have hnone : command c = none :=
          command_eq_none ht htne ⟨cs.flatten, hjoin⟩
        obtain ⟨t', left, ht', hrest, hlt⟩ := lines_split hlines hb
        refine bounded_of_lt ?_
        rw [eventLoop_cons hc, hnone, Option.toList_none, List.nil_append]
        exact Nat.lt_of_le_of_lt (ih hcs ht' hrest).1 hlt

theorem eventLoop_skip {pre : List CString} (hne : ∀ c ∈ pre, c ≠ []) (ht : Rest pre.flatten)
    (rest : List CString) : eventLoop (pre ++ rest) = eventLoop rest := by
  induction pre with
  | nil => rfl
  | cons c pre ih =>
    have hc : c ≠ [] := hne c List.mem_cons_self
    rw [List.flatten_cons] at ht
    have hnone : command c = none :=
      command_eq_none (u := []) ht (by simp [hc]) ⟨pre.flatten, by simp⟩
    rw [List.cons_append, eventLoop_cons hc, hnone, Option.toList_none, List.nil_append]
    exact ih (fun c' hc' => hne c' (List.mem_cons_of_mem _ hc')) (rest_of_append ht)

theorem eventLoop_of_aligned {cs : List CString} {events : List StaEvent} (h : Aligned cs events)
    (hne : ∀ c ∈ cs, c ≠ []) : eventLoop cs = events.map StaEvent.text := by
  induction h with
  | nil => rfl
  | @cons e chunk tail rest events hline hword h ih =>
    have hchunk : chunk ≠ [] := hne chunk List.mem_cons_self
    have hsome : command chunk = some e.text :=
      command_eq_some (u := []) ⟨tail.flatten, by rw [hline, List.append_nil]⟩ hword
    have htail : ∀ c ∈ tail, c ≠ [] := fun c hc => hne c (by simp [hc])
    rw [eventLoop_cons hchunk, hsome, eventLoop_skip htail ⟨chunk, hchunk, .inr ⟨e, hline⟩⟩,
      ih (fun c hc => hne c (by simp [hc]))]
    rfl

theorem bounded_of_reply {first : CString} {cs : List CString} {events : List StaEvent}
    (hfirst : first ≠ []) (hne : ∀ c ∈ cs, c ≠ [])
    (hjoin : first ++ cs.flatten = okReply ++ lines events) :
    (eventLoop cs).length ≤ events.length ∧
      ((eventLoop cs).length = events.length →
        ∃ reply rest, cs = reply ++ rest ∧ first ++ reply.flatten = okReply ∧
          Aligned rest events) := by
  rcases List.append_eq_append_iff.mp hjoin with ⟨a, hreply, hrest⟩ | ⟨b, hfb, hlines⟩
  · have hbounded := bounded_of_joined hne ⟨first, hfirst, .inl hreply.symm⟩ hrest
    refine ⟨hbounded.1, fun heq => ?_⟩
    obtain ⟨pre, rest, hcs, hpre, haligned⟩ := hbounded.2 heq
    exact ⟨pre, rest, hcs, by rw [hpre, hreply], haligned⟩
  · by_cases hb : b = []
    · subst hb
      have hbounded := bounded_of_joined hne rest_nil hlines.symm
      refine ⟨hbounded.1, fun heq => ?_⟩
      obtain ⟨pre, rest, hcs, hpre, haligned⟩ := hbounded.2 heq
      exact ⟨pre, rest, hcs, by rw [hpre, hfb]; simp, haligned⟩
    · obtain ⟨t, left, ht, hrest, hlt⟩ := lines_split hlines hb
      have hle := (bounded_of_joined hne ht hrest).1
      exact ⟨by omega, fun heq => by omega⟩

/-- For every sequence of events and every way to cut the stream, the thread writes
exactly the events that were sent, in order, if and only if there are none or the
cut is framed. -/
theorem led_watcher_writes_events_iff {stale : CString} {chunks : List CString}
    {events : List StaEvent} (hcut : Cut chunks (okReply ++ lines events)) :
    ledWatcherThread stale chunks = events.map StaEvent.text ↔
      events = [] ∨ Framed stale chunks events := by
  cases chunks with
  | nil => exact absurd hcut.joined.symm (by simp [okReply])
  | cons first cs =>
    have hfirst : first ≠ [] := (hcut.sizes first List.mem_cons_self).1
    have hne : ∀ c ∈ cs, c ≠ [] := fun c hc => (hcut.sizes c (List.mem_cons_of_mem _ hc)).1
    have hbounded := bounded_of_reply hfirst hne hcut.joined
    rw [ledWatcherThread]
    constructor
    · intro hwritten
      by_cases hsub : subscribed stale first = true
      · rw [if_pos hsub] at hwritten
        have hlength : (eventLoop cs).length = events.length := by
          rw [hwritten, List.length_map]
        obtain ⟨reply, rest, hcs, hreply, haligned⟩ := hbounded.2 hlength
        exact .inr ⟨first, reply, rest, by rw [hcs], hsub, hreply, haligned⟩
      · rw [if_neg hsub, eq_comm, List.map_eq_nil_iff] at hwritten
        exact .inl hwritten
    · rintro (rfl | ⟨first', reply, rest, hchunks, hsub, hreply, haligned⟩)
      · have hnil : eventLoop cs = [] := List.length_eq_zero_iff.mp (Nat.le_zero.mp hbounded.1)
        rw [hnil, ite_self]
        rfl
      · obtain ⟨rfl, rfl⟩ := List.cons.inj hchunks
        rw [if_pos hsub, eventLoop_skip (fun c hc => hne c (List.mem_append_left _ hc))
          ⟨first, hfirst, .inl hreply⟩]
        exact eventLoop_of_aligned haligned (fun c hc => hne c (List.mem_append_right _ hc))

/-- Each event in a `recv` of its own, one of them without its line feed. -/
theorem led_watcher_writes_events_separate :
    ledWatcherThread [] ["OK\n".toList, "sta_join\n".toList, "traffic".toList, "\n".toList] =
      ["sta_join".toList, "traffic".toList] := by
  have hcut : Cut ["OK\n".toList, "sta_join\n".toList, "traffic".toList, "\n".toList]
      (okReply ++ lines [.staJoin, .traffic]) := ⟨rfl, by decide⟩
  refine (led_watcher_writes_events_iff hcut).mpr (.inr ⟨"OK\n".toList, [], _, rfl, rfl, rfl, ?_⟩)
  exact .cons .staJoin [] rfl (by decide) (.cons .traffic ["\n".toList] rfl (by decide) .nil)

/-- Two events in one `recv`: the second one is not written. -/
theorem not_led_watcher_writes_events :
    Cut ["OK\n".toList, "sta_join\nsta_leave\n".toList]
        (okReply ++ lines [.staJoin, .staLeave]) ∧
      ledWatcherThread [] ["OK\n".toList, "sta_join\nsta_leave\n".toList] =
        ["sta_join".toList] ∧
      ledWatcherThread [] ["OK\n".toList, "sta_join\nsta_leave\n".toList] ≠
        [StaEvent.staJoin, .staLeave].map StaEvent.text :=
  ⟨⟨rfl, by decide⟩, rfl, by decide⟩

end LedWatcher
end Core
end LinuxLab
